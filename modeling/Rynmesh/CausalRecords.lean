import Mathlib.Data.Prod.Lex
import Mathlib.Data.String.Basic
import Rynmesh.CheckedComputation
import Rynmesh.InsertionDict

/-!
# Causal registers

`device_sync/records.py`: an entity keeps a version vector (`clock`) and its
concurrent values (`heads`).  `write` replaces the heads by one value, `merge`
keeps of each side what the other has too or has not observed.

A scope says how a value is cleaned and bound; its values are typed, so the
type checks of the source are left out, as is the memo of validated bytes.
-/

namespace Records

open Checked

def maxActors : Nat := 64

def maxCounter : Nat := 2 ^ 53 - 1

def maxRecordBytes : Nat := 8 * 1024 * 1024

structure Head (V : Type) where
  actor : String
  counter : Nat
  /-- None is a causal deletion. -/
  value : Option V
  deriving DecidableEq

structure Record (V : Type) where
  clock : Dict String Nat
  heads : List (Head V)
  erased : Bool

/-- What a scope fixes about its values. -/
structure Scope (V : Type) where
  isConversations : Bool
  /-- `clean_value` on a value of an entity. -/
  clean : String → V → Except String V
  /-- The fields that all values of a conversation share. -/
  binding : V → String × String × String × String
  /-- `fingerprint` of a value. -/
  fingerprint : Option V → String
  /-- `len(canonical_json(record))`. -/
  size : Record V → Nat

variable {V : Type} [DecidableEq V] (scope : Scope V)

/-- `_ACTOR`. -/
def isActorId (actor : String) : Bool :=
  actor.length = 64 && actor.toList.all fun c => c ∈ "0123456789abcdef".toList

/-- `entity_id`. -/
def isEntityId (identifier : String) : Bool :=
  0 < identifier.length && identifier.length ≤ 256 &&
    identifier.toList.all fun c => 0x20 ≤ c.toNat

/-- `clean_value`. -/
def cleanValue (identifier : String) : Option V → Except String (Option V)
  | none => .ok none
  | some value => some <$> scope.clean identifier value

def empty : Record V := ⟨.empty, [], false⟩

def Record.clockAt (record : Record V) (actor : String) : Nat :=
  (record.clock.get? actor).getD 0

def Head.dot (head : Head V) : String × Nat := (head.actor, head.counter)

/-- `_binding`. -/
def checkBinding (values : List (Option V)) : Except String Unit :=
  whenever (scope.isConversations = true) <|
    require "sync_service_binding_mismatch"
      ((values.filterMap fun value => value.map scope.binding).dedup.length ≤ 1)

/-- The loop of `validate` over the heads; `seen` are the actors before. -/
def checkHeads (identifier : String) (clock : Dict String Nat) :
    List String → List (Head V) → Except String Unit
  | _, [] => .ok ()
  | seen, head :: rest => do
      require "sync_actor_invalid" (isActorId head.actor = true)
      require "sync_clock_invalid" (head.actor ∉ seen ∧ clock.get? head.actor = some head.counter)
      let value ← cleanValue scope identifier head.value
      require "sync_value_invalid" (value = head.value)
      checkHeads identifier clock (head.actor :: seen) rest

def validate (identifier : String) (record : Record V) : Except String Unit := do
  require "sync_entity_invalid" (isEntityId identifier = true)
  require "sync_record_invalid"
    (record.clock.entries.length ≤ maxActors ∧ record.heads.length ≤ maxActors)
  record.clock.entries.forM fun entry => do
    require "sync_actor_invalid" (isActorId entry.1 = true)
    require "sync_clock_invalid" (1 ≤ entry.2 ∧ entry.2 ≤ maxCounter)
  checkHeads scope identifier record.clock [] record.heads
  require "sync_record_invalid"
    (record.erased = true → scope.isConversations = true ∧ record.heads = [])
  require "sync_record_limit" (scope.size record ≤ maxRecordBytes)
  checkBinding scope (record.heads.map Head.value)

/-- The record that `write` makes of a cleaned value. -/
def Record.written (previous : Record V) (actor : String) (value : Option V) (erase : Bool) :
    Record V where
  clock := previous.clock.set actor (previous.clockAt actor + 1)
  heads := if erase then [] else [⟨actor, previous.clockAt actor + 1, value⟩]
  erased := erase

def write (identifier : String) (previous : Record V) (actor : String) (value : Option V)
    (erase : Bool) : Except String (Record V) := do
  validate scope identifier previous
  require "sync_actor_invalid" (isActorId actor = true)
  require "sync_entity_erased" (previous.erased = false)
  require "sync_record_invalid" (erase = true → scope.isConversations = true)
  let cleaned ← cleanValue scope identifier value
  require "sync_conversation_deleted" (¬ (scope.isConversations = true ∧ cleaned ≠ none ∧
    ∃ head ∈ previous.heads, head.value = none))
  checkBinding scope (previous.heads.map Head.value ++ [cleaned])
  validate scope identifier (previous.written actor cleaned erase)
  return previous.written actor cleaned erase

/-- The clock of a merge: the larger counter of each actor. -/
def joinClock (left right : Dict String Nat) : Dict String Nat :=
  right.entries.foldl
    (fun clock entry => clock.set entry.1 (max ((left.get? entry.1).getD 0) entry.2)) left

/-- `sorted` compares actors first, then counters. -/
def Head.le (a b : Head V) : Prop :=
  a.actor < b.actor ∨ a.actor = b.actor ∧ a.counter ≤ b.counter

instance : DecidableRel (Head.le (V := V)) :=
  fun _ _ => inferInstanceAs (Decidable (_ ∨ _))

/-- A head of one side that the merge keeps: the other side has it, or has not observed it. -/
def kept (other : Record V) (head : Head V) : Bool :=
  (other.heads.any fun same => same.dot = head.dot) || other.clockAt head.actor < head.counter

/-- The heads of a merge, sorted by actor and counter. -/
def joinHeads (left right : Record V) : List (Head V) :=
  ((left.heads.filter fun head =>
      !(right.heads.any fun same => same.dot = head.dot) && kept right head) ++
    right.heads.filter (kept left)).insertionSort Head.le

def merge (identifier : String) (left right : Record V) : Except String (Record V) := do
  validate scope identifier left
  validate scope identifier right
  require "sync_device_limit" ((joinClock left.clock right.clock).entries.length ≤ maxActors)
  if left.erased || right.erased then
    return ⟨joinClock left.clock right.clock, [], true⟩
  else do
    require "sync_dot_conflict" (∀ head ∈ left.heads, ∀ same ∈ right.heads,
      head.dot = same.dot → head.value = same.value)
    validate scope identifier ⟨joinClock left.clock right.clock, joinHeads left right, false⟩
    return ⟨joinClock left.clock right.clock, joinHeads left right, false⟩

/-- `view` of a conversation: its candidates are the distinct values, sorted by fingerprint. -/
structure View (V : Type) where
  conflict : Bool
  erased : Bool
  deleted : Bool
  branches : List V
  recovery : List V

def candidates (record : Record V) : List (Option V) :=
  (record.heads.foldl (fun options head =>
      match options.get? (scope.fingerprint head.value) with
      | some _ => options
      | none => options.set (scope.fingerprint head.value) head.value)
    (Dict.empty : Dict String (Option V))).entries.insertionSort (fun a b => a.1 ≤ b.1)
    |>.map Prod.snd

def Record.viewed (record : Record V) (options : List (Option V)) : View V :=
  if record.erased || options.any fun value => value = none then
    ⟨1 < options.length, record.erased, true, [], options.filterMap id⟩
  else ⟨1 < options.length, record.erased, false, options.filterMap id, []⟩

def view (identifier : String) (record : Record V) : Except String (View V) := do
  validate scope identifier record
  return record.viewed (candidates scope record)

/-- What `canonical_json` makes of a record: the clock with its keys sorted. -/
def Record.canonical (record : Record V) : List (String × Nat) × List (Head V) × Bool :=
  (record.clock.entries.insertionSort (fun a b => a.1 ≤ b.1), record.heads, record.erased)

end Records
