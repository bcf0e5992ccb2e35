import Rynmesh.InsertionDict
import Mathlib.Data.List.Dedup
import Mathlib.Data.List.Induction
import Mathlib.Data.String.Basic

/-!
# The refusals that a device counts

`DeviceTransfer._rejected` in `device_sync/transfer.py`: what another device refused
is kept by id, up to a cap in `rows` with its code, up to a second one in `overflow`
without, and beyond that no more than as a flag.

* `Moves`: what one answer does to the ids that are listed;
* `Tells`: what an entry tells of the answers so far;
* `count_of_refusals`: over all calls the count is that of the rows whose last answer
  was a refusal, until the list is cut, which it is once they are too many.
-/

namespace Refusals

/-- `MAX_BATCH`. -/
def maxBatch : Nat := 100

/-- `OVERFLOW_LIMIT`. -/
def overflowLimit : Nat := 1000

/-- What is kept of a scope. -/
structure Entry where
  count : Int
  rows : Dict String String
  overflow : List String
  /-- `overflow_truncated`. -/
  truncated : Bool

namespace Entry

/-- What is read where nothing is kept. -/
def fresh : Entry := ⟨0, .empty, [], false⟩

/-- The ids that an entry lists. -/
def listed (e : Entry) : List String := e.rows.keys ++ e.overflow

/-- The caps of the two lists. -/
def Capped (e : Entry) : Prop :=
  e.rows.entries.length ≤ maxBatch ∧ e.overflow.length ≤ overflowLimit

end Entry

/-- One answer: an id and its code, which is empty where the row was accepted. -/
def answer (e : Entry) (item : String × String) : Entry :=
  if item.2 = "" then
    if (e.rows.get? item.1).isSome then
      { e with rows := e.rows.erase item.1, count := e.count - 1 }
    else if item.1 ∈ e.overflow then
      { e with overflow := e.overflow.erase item.1, count := e.count - 1 }
    else e
  else if (e.rows.get? item.1).isSome then { e with rows := e.rows.set item.1 item.2 }
  else if item.1 ∈ e.overflow then e
  else if e.rows.entries.length < maxBatch then
    { e with rows := e.rows.set item.1 item.2, count := e.count + 1 }
  else if e.overflow.length < overflowLimit then
    { e with overflow := item.1 :: e.overflow, count := e.count + 1 }
  else { e with truncated := true }

/-- `state["rejected"]`, where there is one. -/
abbrev Rejected := Option (Dict String Entry)

def entryOf (state : Rejected) (scope : String) : Entry :=
  ((state.getD .empty).get? scope).getD .fresh

/-- What is kept after the answers of a call. -/
def settle (e : Entry) : Option Entry :=
  let count := min (max e.count 0) (e.rows.entries.length + e.overflow.length)
  if count ≠ 0 ∨ e.truncated then
    some { e with count, overflow := e.overflow.insertionSort (· ≤ ·) }
  else none

/-- `_rejected`. -/
def rejected (state : Rejected) (scope : String) (answers : Dict String String) : Rejected :=
  let entry := answers.entries.foldl answer
    { entryOf state scope with overflow := (entryOf state scope).overflow.dedup }
  let kept :=
    match settle entry with
    | some e => (state.getD .empty).set scope e
    | none => (state.getD .empty).erase scope
  if kept.entries = [] then none else some kept

/-- The calls for a device, with the scope and the answers of each. -/
abbrev Calls := List (String × Dict String String)

def run (calls : Calls) : Rejected :=
  calls.foldl (fun state call => rejected state call.1 call.2) none

/-! ### What the count is to be -/

/-- The answers for a scope, in their order. -/
def answersTo (scope : String) (calls : Calls) : List (String × String) :=
  calls.flatMap fun call => if call.1 = scope then call.2.entries else []

def mostRecent (past : List (String × String)) (id : String) : Option String :=
  Dict.lookup id past.reverse

/-- The ids whose most recent answer was a refusal, each once. -/
def refused (past : List (String × String)) : List String :=
  (past.map Prod.fst).dedup.filter fun id => (mostRecent past id).any fun code => code ≠ ""

/-- More ids were refused at some point than the lists have room for. -/
def Crowded (past : List (String × String)) : Prop :=
  ∃ earlier, earlier <+: past ∧ maxBatch + overflowLimit < (refused earlier).length

/-! ### One answer -/

/-- What one answer does to the ids that are listed. -/
inductive Moves (e : Entry) (item : String × String) (next : Entry) : Prop
  | settled (haccepted : item.2 = "") (hlisted : e.listed.Perm (item.1 :: next.listed))
      (hcount : next.count = e.count - 1) (hflag : next.truncated = e.truncated)
  | unlisted (haccepted : item.2 = "") (hnew : item.1 ∉ e.listed) (h : next = e)
  | known (hrefused : item.2 ≠ "") (hknown : item.1 ∈ e.listed) (hlisted : next.listed = e.listed)
      (hcount : next.count = e.count) (hflag : next.truncated = e.truncated)
  | added (hrefused : item.2 ≠ "") (hnew : item.1 ∉ e.listed)
      (hlisted : next.listed.Perm (item.1 :: e.listed)) (hcount : next.count = e.count + 1)
      (hflag : next.truncated = e.truncated)
  | dropped (hrefused : item.2 ≠ "") (hnew : item.1 ∉ e.listed)
      (hfull : maxBatch + overflowLimit ≤ e.listed.length) (hlisted : next.listed = e.listed)
      (hcount : next.count = e.count) (hflag : next.truncated = true)

theorem keys_erase_perm {rows : Dict String String} {id : String} (h : id ∈ rows.keys) :
    rows.keys.Perm (id :: (rows.erase id).keys) := by
  have hkeys : (rows.erase id).keys = rows.keys.erase id := by
    rw [rows.keys_nodup.erase_eq_filter]
    simp only [Dict.keys, Dict.erase, Dict.filter, List.filter_map]
    congr 2
    funext entry
    by_cases h : entry.1 = id <;> simp [h]
  rw [hkeys]
  exact List.perm_cons_erase h

variable {e : Entry}

theorem isSome_get? {rows : Dict String String} {id : String} :
    (rows.get? id).isSome ↔ id ∈ rows.keys := by
  rw [Dict.mem_keys_iff, Option.isSome_iff_exists]

theorem answer_moves (e : Entry) (item : String × String) : Moves e item (answer e item) := by
  obtain ⟨id, code⟩ := item
  unfold answer
  simp only [isSome_get?]
  split_ifs with hcode hrow hover hrow hover hroom hroom'
  · refine .settled hcode ?_ rfl rfl
    exact (keys_erase_perm hrow).append_right e.overflow
  · refine .settled hcode ?_ rfl rfl
    exact ((List.perm_cons_erase hover).append_left e.rows.keys).trans List.perm_middle
  · exact .unlisted hcode (fun h => (List.mem_append.mp h).elim hrow hover) rfl
  · refine .known hcode (List.mem_append_left _ hrow) ?_ rfl rfl
    simp only [Entry.listed, Dict.keys, Dict.set, Dict.map_fst_assign]
    rw [if_pos (show id ∈ e.rows.entries.map Prod.fst from hrow)]
  · exact .known hcode (List.mem_append_right _ hover) rfl rfl rfl
  · refine .added hcode (fun h => (List.mem_append.mp h).elim hrow hover) ?_ rfl rfl
    simp only [Entry.listed, Dict.keys, Dict.entries_set_of_new code hrow, List.map_append]
    simp
  · exact .added hcode (fun h => (List.mem_append.mp h).elim hrow hover) List.perm_middle rfl rfl
  · refine .dropped hcode (fun h => (List.mem_append.mp h).elim hrow hover) ?_ rfl rfl rfl
    simp only [Entry.listed, Dict.keys, List.length_append, List.length_map]
    omega

/-- The caps are kept. -/
theorem answer_capped (h : e.Capped) (item : String × String) : (answer e item).Capped := by
  obtain ⟨hrows, hoverflow⟩ := h
  unfold answer
  simp only [isSome_get?]
  split_ifs with hcode hrow hover hrow hover hroom hroom'
  · exact ⟨(List.length_filter_le _ _).trans hrows, hoverflow⟩
  · exact ⟨hrows, (List.length_erase_le).trans hoverflow⟩
  · exact ⟨hrows, hoverflow⟩
  · refine ⟨?_, hoverflow⟩
    have hkeys := congrArg List.length (Dict.map_fst_assign item.1 item.2 e.rows.entries)
    rw [if_pos (show item.1 ∈ e.rows.entries.map Prod.fst from hrow), List.length_map,
      List.length_map] at hkeys
    exact hkeys ▸ hrows
  · exact ⟨hrows, hoverflow⟩
  · refine ⟨?_, hoverflow⟩
    simp only [Dict.entries_set_of_new item.2 hrow, List.length_append, List.length_singleton]
    omega
  · exact ⟨hrows, hroom'⟩
  · exact ⟨hrows, hoverflow⟩

/-- What an entry tells of the answers so far. -/
structure Tells (past : List (String × String)) (e : Entry) : Prop where
  nodup : e.listed.Nodup
  count : e.count = e.listed.length
  truthful : e.truncated = false → ∀ id, id ∈ e.listed ↔
    (mostRecent past id).any (fun code => code ≠ "") = true
  capped : e.Capped
  cut : e.truncated = true ↔ Crowded past

variable {past : List (String × String)}

theorem mostRecent_concat (item : String × String) (id : String) :
    mostRecent (past ++ [item]) id = if item.1 = id then some item.2 else mostRecent past id := by
  unfold mostRecent
  rw [List.reverse_append]
  rfl

/-- A list that is not cut has the refused ids. -/
theorem listed_perm_refused (hnodup : e.listed.Nodup)
    (htruthful : ∀ id, id ∈ e.listed ↔ (mostRecent past id).any (fun code => code ≠ "") = true) :
    e.listed.Perm (refused past) := by
  refine (List.perm_ext_iff_of_nodup hnodup ((List.nodup_dedup _).filter _)).mpr fun id => ?_
  rw [htruthful id, List.mem_filter, List.mem_dedup]
  refine ⟨fun hany => ⟨?_, hany⟩, And.right⟩
  -- an id without an answer has no most recent one
  by_contra hnone
  rw [mostRecent, Dict.lookup_eq_none_iff.mpr (by simpa using hnone)] at hany
  cases hany

theorem crowded_concat (item : String × String) : Crowded (past ++ [item]) ↔
    Crowded past ∨ maxBatch + overflowLimit < (refused (past ++ [item])).length := by
  simp only [Crowded, List.prefix_concat_iff, or_and_right, exists_or, exists_eq_left]
  exact or_comm

theorem Moves.cut {item : String × String} {next : Entry} (h : Moves e item next) :
    (e.truncated = true → next.truncated = true) ∧
      (e.truncated = false → next.truncated = true → item.2 ≠ "" ∧ item.1 ∉ e.listed ∧
        maxBatch + overflowLimit ≤ e.listed.length) := by
  cases h with
  | unlisted _ _ h => simp +contextual [h]
  | dropped hrefused hnew hfull _ _ hflag =>
    exact ⟨fun _ => hflag, fun _ _ => ⟨hrefused, hnew, hfull⟩⟩
  | _ => simp +contextual [*]

namespace Tells

theorem perm (h : Tells past e) (htruncated : e.truncated = false) :
    e.listed.Perm (refused past) :=
  listed_perm_refused h.nodup (h.truthful htruncated)

/-- One answer keeps the listed ids those that were refused. -/
theorem lists (h : Tells past e) {item : String × String} {next : Entry}
    (hmoves : Moves e item next) :
    next.listed.Nodup ∧ next.count = next.listed.length ∧
      (next.truncated = false → ∀ id, id ∈ next.listed ↔
        (mostRecent (past ++ [item]) id).any (fun code => code ≠ "") = true) := by
  cases hmoves with
  | settled haccepted hlisted hcount hflag =>
    have hnodup := List.nodup_cons.mp (hlisted.nodup_iff.mp h.nodup)
    refine ⟨hnodup.2, ?_, fun htruncated id => ?_⟩
    · rw [hcount, h.count, hlisted.length_eq, List.length_cons]
      omega
    · have hold := h.truthful (hflag ▸ htruncated) id
      rw [hlisted.mem_iff, List.mem_cons] at hold
      rw [mostRecent_concat]
      split
      · rename_i hid
        simp [← hid, hnodup.1, haccepted]
      · rename_i hid
        rw [← hold]
        exact ⟨.inr, fun hmem => hmem.resolve_left fun heq => hid heq.symm⟩
  | unlisted haccepted hnew heq =>
    subst heq
    refine ⟨h.nodup, h.count, fun htruncated id => ?_⟩
    rw [mostRecent_concat]
    split
    · rename_i hid
      simp [← hid, hnew, haccepted]
    · exact h.truthful htruncated id
  | known hrefused hknown hlisted hcount hflag =>
    refine ⟨hlisted ▸ h.nodup, by rw [hcount, hlisted, h.count], fun htruncated id => ?_⟩
    rw [mostRecent_concat, hlisted]
    split
    · rename_i hid
      simp [← hid, hknown, hrefused]
    · exact h.truthful (hflag ▸ htruncated) id
  | added hrefused hnew hlisted hcount hflag =>
    refine ⟨hlisted.nodup_iff.mpr (List.nodup_cons.mpr ⟨hnew, h.nodup⟩), ?_,
      fun htruncated id => ?_⟩
    · rw [hcount, h.count, hlisted.length_eq, List.length_cons]
      omega
    · rw [mostRecent_concat, hlisted.mem_iff, List.mem_cons]
      split
      · rename_i hid
        simp [← hid, hrefused]
      · rename_i hid
        rw [← h.truthful (hflag ▸ htruncated) id]
        exact ⟨fun hmem => hmem.resolve_left fun heq => hid heq.symm, .inr⟩
  | dropped _ _ _ hlisted hcount hflag =>
    refine ⟨hlisted ▸ h.nodup, by rw [hcount, hlisted, h.count], fun htruncated => ?_⟩
    rw [hflag] at htruncated
    cases htruncated

/-- A refusal that finds the lists full makes the refused ids too many. -/
theorem crowds (h : Tells past e) (htruncated : e.truncated = false) {item : String × String}
    (hrefused : item.2 ≠ "") (hnew : item.1 ∉ e.listed)
    (hfull : maxBatch + overflowLimit ≤ e.listed.length) :
    maxBatch + overflowLimit < (refused (past ++ [item])).length := by
  have hsubset : item.1 :: e.listed ⊆ refused (past ++ [item]) := by
    intro id hid
    have hany : (mostRecent (past ++ [item]) id).any (fun code => code ≠ "") = true := by
      rw [mostRecent_concat]
      split
      · simpa using hrefused
      · rename_i hother
        have hlisted := (List.mem_cons.mp hid).resolve_left fun heq => hother heq.symm
        exact (h.truthful htruncated id).mp hlisted
    refine List.mem_filter.mpr ⟨List.mem_dedup.mpr ?_, hany⟩
    rcases List.mem_cons.mp hid with rfl | hid
    · simp
    · have hearlier := (List.mem_filter.mp ((h.perm htruncated).subset hid)).1
      simp only [List.map_append, List.mem_append]
      exact .inl (List.mem_dedup.mp hearlier)
  have hnodup : (item.1 :: e.listed).Nodup := List.nodup_cons.mpr ⟨hnew, h.nodup⟩
  have hlength := (List.subperm_of_subset hnodup hsubset).length_le
  rw [List.length_cons] at hlength
  omega

theorem answer (h : Tells past e) (item : String × String) :
    Tells (past ++ [item]) (Refusals.answer e item) := by
  have hmoves := answer_moves e item
  have hcapped := answer_capped h.capped item
  obtain ⟨hnodup, hcount, htruthful⟩ := h.lists hmoves
  obtain ⟨hstays, hcuts⟩ := hmoves.cut
  refine ⟨hnodup, hcount, htruthful, hcapped, ?_⟩
  rw [crowded_concat, ← h.cut]
  cases hold : e.truncated with
  | true => simpa using hstays hold
  | false =>
    refine ⟨fun hnext => ?_, fun hcrowded => ?_⟩
    · obtain ⟨hrefused, hnew, hfull⟩ := hcuts hold hnext
      exact .inr (h.crowds hold hrefused hnew hfull)
    · -- what is not cut lists the refused ids, within the caps
      by_contra hnot
      have hfalse := Bool.eq_false_iff.mpr hnot
      have hperm := listed_perm_refused hnodup (htruthful hfalse)
      have hmany := hcrowded.resolve_left (by simp)
      rw [← hperm.length_eq] at hmany
      simp only [Entry.listed, Dict.keys, List.length_append, List.length_map] at hmany
      have hroom := hcapped
      unfold Entry.Capped at hroom
      omega

theorem answers (items : List (String × String)) :
    ∀ {past : List (String × String)} {e : Entry}, Tells past e →
      Tells (past ++ items) (items.foldl Refusals.answer e) := by
  induction items with
  | nil =>
    intro past e h
    simpa using h
  | cons item rest ih =>
    intro past e h
    simpa using ih (h.answer item)

theorem fresh : Tells [] .fresh :=
  ⟨List.nodup_nil, rfl, fun _ id => by simp [Entry.listed, Entry.fresh, Dict.keys, Dict.empty,
    mostRecent, Dict.lookup], ⟨Nat.zero_le _, Nat.zero_le _⟩,
    by simp [Entry.fresh, Crowded, refused]⟩

/-- Reading the ids of `overflow` as a set, and writing them in order. -/
theorem overflow {overflow : List String} (h : Tells past e) (hperm : overflow.Perm e.overflow) :
    Tells past { e with overflow } := by
  have hlisted : (Entry.listed { e with overflow }).Perm e.listed := hperm.append_left e.rows.keys
  exact ⟨hlisted.nodup_iff.mpr h.nodup, by rw [hlisted.length_eq]; exact h.count,
    fun htruncated id => hlisted.mem_iff.trans (h.truthful htruncated id),
    ⟨h.capped.1, hperm.length_eq ▸ h.capped.2⟩, h.cut⟩

theorem settled (h : Tells past e) : Tells past ((settle e).getD .fresh) := by
  have hlength : (e.rows.entries.length : Int) + e.overflow.length = e.listed.length := by
    simp [Entry.listed, Dict.keys]
  have hcount : min (max e.count 0) (e.rows.entries.length + e.overflow.length) = e.count := by
    rw [hlength, h.count]
    omega
  unfold settle
  simp only [hcount]
  split
  · exact h.overflow (List.perm_insertionSort _ _)
  rename_i hdrop
  rw [not_or, not_not, Bool.not_eq_true] at hdrop
  have hnil : e.listed = [] := by
    rw [← List.length_eq_zero_iff]
    have := h.count
    omega
  refine ⟨List.nodup_nil, rfl, fun _ id => ?_, fresh.capped, ?_⟩
  · rw [← h.truthful hdrop.2 id, hnil]
    rfl
  · rw [← h.cut, hdrop.2]
    rfl

end Tells

/-! ### All calls -/

theorem entryOf_rejected (state : Rejected) (scope other : String) (answers : Dict String String) :
    entryOf (rejected state scope answers) other =
      if other = scope then (settle (answers.entries.foldl answer { entryOf state scope with
        overflow := (entryOf state scope).overflow.dedup })).getD .fresh
      else entryOf state other := by
  have hkept : ∀ kept : Dict String Entry,
      entryOf (if kept.entries = [] then none else some kept) other =
        (kept.get? other).getD .fresh := by
    intro kept
    split
    · rename_i hnil
      simp [entryOf, Dict.get?, hnil, Dict.empty]
    · rfl
  unfold rejected
  simp only [hkept]
  split
  · rename_i e he
    rw [Dict.get?_set, he]
    split
    · rfl
    · rfl
  · rename_i he
    rw [Dict.get?_erase, he]
    split
    · rfl
    · rfl

theorem run_tells (calls : Calls) (scope : String) :
    Tells (answersTo scope calls) (entryOf (run calls) scope) := by
  induction calls using List.reverseRecOn with
  | nil => exact Tells.fresh
  | append_singleton calls call ih =>
    obtain ⟨asked, answers⟩ := call
    rw [run, List.foldl_append, List.foldl_cons, List.foldl_nil, ← run, entryOf_rejected,
      answersTo, List.flatMap_append, ← answersTo, List.flatMap_singleton]
    by_cases hscope : scope = asked
    · subst hscope
      simp only [if_true]
      refine (Tells.answers _ (ih.overflow ?_)).settled
      rw [(ih.nodup.of_append_right).dedup]
    · rw [if_neg hscope, if_neg fun h => hscope h.symm, List.append_nil]
      exact ih

/-- **The count of a scope** is that of the rows whose last answer was a refusal, until the list
is cut, and always that of the ids in the list.  The list is cut when more rows are refused at some
point than it has room for, and only then. -/
theorem count_of_refusals (calls : Calls) (scope : String) :
    ((entryOf (run calls) scope).truncated = false →
      (entryOf (run calls) scope).count = (refused (answersTo scope calls)).length) ∧
    (entryOf (run calls) scope).listed.Nodup ∧
    (entryOf (run calls) scope).count = (entryOf (run calls) scope).listed.length ∧
    ((entryOf (run calls) scope).truncated = true ↔ Crowded (answersTo scope calls)) := by
  have h := run_tells calls scope
  refine ⟨fun htruncated => ?_, h.nodup, h.count, h.cut⟩
  rw [h.count, (h.perm htruncated).length_eq]

end Refusals
