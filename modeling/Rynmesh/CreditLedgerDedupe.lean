import Rynmesh.CreditLedger

/-!
# One event for each dedupe key

`append` finds the recorded event with a key only among the events that the
global listing shows: not in a `dev:` category, readable, and verifying under
the policy of the call.

* `findByDedupe_ok` says what the lookup finds, and `append_ok` what a call does;
* `Clear` is the condition under which the lookup sees the recorded event with
  the key, `Sound` what every ledger satisfies whose calls met it;
* `recorded_once_per_key` concludes for every run whose calls are clear, and
  `accounting_key_recorded_twice` is a run without.
-/

namespace Credits

open Checked

variable {C : Codec} {env : Environment} {ledger : Ledger} {signed : SignedPayload}
  {event other : CreditEvent} {path : EventPath}

/-! ### Verification -/

/-- The signed document is the event, whatever the policy says of it. -/
structure Genuine (C : Codec) (signed : SignedPayload) (event : CreditEvent) : Prop where
  fields : CreditEvent.fromPayload C signed.payload = .ok event
  read : readSigned C signed = .ok event
  checked : checkEvent C signed event = .ok ()

theorem verify_ok : verify C env signed = .ok event ↔
    Genuine C signed event ∧
      checkPolicy env.policy (env.issuerTier event.issuerPeerId) event = .ok () := by
  simp only [verify, verifyWithPolicy, bind_ok, pure_ok, mapError_ok]
  constructor
  · intro hall
    obtain ⟨peek, hpeek, read, hread, _, hchecked, _, hpolicy, heq⟩ := hall
    have hfields : CreditEvent.fromPayload C signed.payload = .ok read := by
      simp only [readSigned, bind_ok] at hread
      obtain ⟨_, _, hfields⟩ := hread
      exact hfields
    have hsame : peek = read := by
      rw [hpeek] at hfields
      injection hfields
    subst hsame heq
    exact ⟨⟨hpeek, hread, hchecked⟩, hpolicy⟩
  · intro hall
    obtain ⟨hgenuine, hpolicy⟩ := hall
    exact ⟨event, hgenuine.fields, event, hgenuine.read, (), hgenuine.checked, (), hpolicy, rfl⟩

theorem Genuine.verify_error {failure : Failure} (h : Genuine C signed event)
    (hverify : verify C env signed = .error failure) : ∃ message, failure = .ledger message := by
  have hbind : verify C env signed =
      (checkPolicy env.policy (env.issuerTier event.issuerPeerId) event >>=
        fun _ => (pure event : Except Failure CreditEvent)) := by
    simp only [verify, verifyWithPolicy, h.fields, h.read, h.checked, Except.mapError, ok_bind]
  have honly : OnlyFails (fun failure => ∃ message, failure = .ledger message)
      (verify C env signed) := by
    rw [hbind]
    simp [checkPolicy, checkIssuerTier]
  exact honly failure hverify

/-! ### The lookup -/

/-- The listing shows a file as an event. -/
def Shown (C : Codec) (env : Environment) (path : EventPath) (signed : SignedPayload)
    (event : CreditEvent) : Prop :=
  env.unreadable path = false ∧ verify C env signed = .ok event

theorem Genuine.readFile (h : Genuine C signed event) (path : EventPath) :
    ∃ shown, readFile C env path signed = .ok shown ∧
      ∀ e, shown = some e ↔ Shown C env path signed e := by
  by_cases hpath : env.unreadable path = true
  · refine ⟨none, by simp [Credits.readFile, hpath], ?_⟩
    intro e
    simp [Shown, hpath]
  have hread : Credits.readFile C env path signed = skipping (verify C env signed) := by
    simp [Credits.readFile, hpath]
  cases hverify : verify C env signed with
  | ok found =>
    refine ⟨some found, by rw [hread, hverify]; rfl, ?_⟩
    intro e
    simp [Shown, hpath, hverify]
  | error failure =>
    obtain ⟨message, heq⟩ := h.verify_error hverify
    refine ⟨none, by rw [hread, hverify, heq]; rfl, ?_⟩
    intro e
    simp [Shown, hverify]

theorem listFiles_ok {subject category : String} {files : List (EventPath × SignedPayload)}
    (h : ∀ file ∈ files, ∃ event, Genuine C file.2 event) :
    ∃ events, listFiles C env subject category files = .ok events ∧
      ∀ signed, signed ∈ events ↔ ∃ path event, (path, signed) ∈ files ∧
        Shown C env path signed event ∧ listed subject category event = true := by
  induction files with
  | nil =>
    refine ⟨[], rfl, ?_⟩
    simp
  | cons file files ih =>
    obtain ⟨path, signed⟩ := file
    obtain ⟨event, hgenuine⟩ := h (path, signed) (.head _)
    have hshows : ∃ shown, readFile C env path signed = .ok shown ∧
        ∀ e, shown = some e ↔ Shown C env path signed e := hgenuine.readFile path
    obtain ⟨shown, hread, hshown⟩ := hshows
    obtain ⟨events, hevents, hmem⟩ := ih fun file hfile => h file (.tail _ hfile)
    refine ⟨_, by simp only [listFiles, hread, hevents, ok_bind]; rfl, ?_⟩
    intro other
    have hhead : shown.any (listed subject category) = true ↔
        ∃ event, Shown C env path signed event ∧ listed subject category event = true := by
      simp only [Option.any_eq_true, hshown]
    have hsplit : other ∈ (if shown.any (listed subject category) then signed :: events
        else events) ↔
        (other = signed ∧ shown.any (listed subject category) = true) ∨ other ∈ events := by
      split <;> simp [*]
    rw [hsplit, hhead, hmem]
    constructor
    · intro hcase
      rcases hcase with ⟨heq, e, hshow, hlisted⟩ | ⟨p, e, hin, hrest⟩
      · rw [heq]
        exact ⟨path, e, (.head _), hshow, hlisted⟩
      · exact ⟨p, e, .tail _ hin, hrest⟩
    · intro hall
      obtain ⟨p, e, hin, hshow, hlisted⟩ := hall
      rcases List.mem_cons.mp hin with heq | hin
      · injection heq with hp hs
        subst hp hs
        exact .inl ⟨rfl, e, hshow, hlisted⟩
      · exact .inr ⟨p, e, hin, hshow, hlisted⟩

/-- An event answers a lookup by issuer, kind and key. -/
def Matches (issuer kind dedupeKey : String) (event : CreditEvent) : Prop :=
  event.issuerPeerId = issuer ∧ event.kind = kind ∧ event.dedupeKey = dedupeKey

theorem firstMatching_ok {issuer kind dedupeKey : String} {events : List SignedPayload}
    (h : ∀ signed ∈ events, ∃ event, CreditEvent.fromPayload C signed.payload = .ok event) :
    ∃ found, firstMatching C issuer kind dedupeKey events = .ok found ∧
      (∀ signed, found = some signed → signed ∈ events ∧ ∃ event,
        CreditEvent.fromPayload C signed.payload = .ok event ∧
          Matches issuer kind dedupeKey event) ∧
      (found = none → ∀ signed ∈ events, ∀ event,
        CreditEvent.fromPayload C signed.payload = .ok event →
          ¬ Matches issuer kind dedupeKey event) := by
  induction events with
  | nil =>
    refine ⟨none, rfl, ?_, ?_⟩ <;> simp
  | cons signed events ih =>
    obtain ⟨event, hevent⟩ := h signed (.head _)
    by_cases hmatch : Matches issuer kind dedupeKey event
    · have hmatch' := hmatch
      unfold Matches at hmatch'
      refine ⟨some signed, by simp [firstMatching, hevent, hmatch', pure, Except.pure], ?_, ?_⟩
      · intro other heq
        injection heq with heq
        subst heq
        exact ⟨(.head _), event, hevent, hmatch⟩
      · nofun
    · have hmatch' := hmatch
      unfold Matches at hmatch'
      obtain ⟨found, hfound, hsome, hnone⟩ :=
        ih fun signed hsigned => h signed (.tail _ hsigned)
      refine ⟨found, by simp only [firstMatching, hevent, ok_bind, if_neg hmatch', hfound], ?_, ?_⟩
      · intro other heq
        obtain ⟨hmem, hrest⟩ := hsome other heq
        exact ⟨.tail _ hmem, hrest⟩
      · intro heq other hmem e he
        rcases List.mem_cons.mp hmem with hhead | hmem
        · rw [hhead, hevent] at he
          injection he with he
          rw [← he]
          exact hmatch
        · exact hnone heq other hmem e he

/-! ### Ledgers -/

/-- The ledger holds a signed event in a file. -/
def Ledger.Holds (C : Codec) (ledger : Ledger) (path : EventPath) (signed : SignedPayload)
    (event : CreditEvent) : Prop :=
  ledger.files.get? path = some signed ∧ CreditEvent.fromPayload C signed.payload = .ok event

/-- The ledger holds no two events with one issuer, subject, kind and key. -/
def Ledger.Once (C : Codec) (ledger : Ledger) : Prop :=
  ∀ path signed event path' signed' event', ledger.Holds C path signed event →
    ledger.Holds C path' signed' event' → event.dedupeKey ≠ "" → SameKey event event' →
      path = path'

/-- Every file holds a genuine event under its own path. -/
def Ledger.Filed (C : Codec) (ledger : Ledger) : Prop :=
  ∀ path signed, ledger.files.get? path = some signed →
    ∃ event, Genuine C signed event ∧ event.path C = path

structure Ledger.Sound (C : Codec) (ledger : Ledger) : Prop where
  filed : ledger.Filed C
  once : ledger.Once C

theorem Ledger.mem_sorted : (path, signed) ∈ ledger.sorted ↔
    ledger.files.get? path = some signed := by
  rw [Ledger.sorted, List.mem_insertionSort, Dict.get?_eq_some_iff]

/-- An event the lookup for another one may find: it matches, and its subject is the
one asked for or none is. -/
def Answers (event other : CreditEvent) : Prop :=
  Matches event.issuerPeerId event.kind event.dedupeKey other ∧
    (event.subjectPeerId = "" ∨ other.subjectPeerId = event.subjectPeerId)

/-- Whether an event is in an accounting category. -/
def CreditEvent.accounting (event : CreditEvent) : Bool :=
  DEV_CATEGORY_PREFIX.toList.isPrefixOf event.category.toList

theorem not_dev_global : DEV_CATEGORY_PREFIX.toList.isPrefixOf GLOBAL_CATEGORY.toList = false := by
  decide

theorem categoryMatches_global {category : String} :
    categoryMatches category GLOBAL_CATEGORY = true ↔
      DEV_CATEGORY_PREFIX.toList.isPrefixOf category.toList = false := by
  unfold categoryMatches
  by_cases hdev : DEV_CATEGORY_PREFIX.toList.isPrefixOf category.toList = true
  · have hne : category ≠ GLOBAL_CATEGORY := by
      intro heq
      rw [heq, not_dev_global] at hdev
      cases hdev
    simp [hdev, hne]
  · simp [hdev]

/-- **The lookup.**  It finds a shown event that answers and is in no accounting
category, if there is one. -/
theorem findByDedupe_ok (h : ledger.Filed C) (event : CreditEvent) :
    ∃ found, ledger.findByDedupe C env event.issuerPeerId event.subjectPeerId event.kind
        event.dedupeKey = .ok found ∧
      (∀ signed, found = some signed → ∃ path other, ledger.Holds C path signed other ∧
        Shown C env path signed other ∧ Answers event other ∧ other.accounting = false) ∧
      (found = none → ∀ path signed other, ledger.Holds C path signed other →
        Shown C env path signed other → Answers event other → other.accounting = true) := by
  have hgenuine : ∀ file ∈ ledger.sorted, ∃ event, Genuine C file.2 event := by
    intro file hfile
    obtain ⟨event, hgenuine, _⟩ := h file.1 file.2 (Ledger.mem_sorted.mp hfile)
    exact ⟨event, hgenuine⟩
  have hlists : ∃ events,
      listFiles C env event.subjectPeerId GLOBAL_CATEGORY ledger.sorted = .ok events ∧
      ∀ signed, signed ∈ events ↔ ∃ path shown, (path, signed) ∈ ledger.sorted ∧
        Shown C env path signed shown ∧
          listed event.subjectPeerId GLOBAL_CATEGORY shown = true := listFiles_ok hgenuine
  obtain ⟨events, hevents, hmem⟩ := hlists
  have hfields : ∀ signed ∈ events, ∃ event,
      CreditEvent.fromPayload C signed.payload = .ok event := by
    intro signed hsigned
    obtain ⟨path, event, _, hshown, _⟩ := (hmem signed).mp hsigned
    exact ⟨event, (verify_ok.mp hshown.2).1.fields⟩
  have hfirst : ∃ found,
      firstMatching C event.issuerPeerId event.kind event.dedupeKey events = .ok found ∧
      (∀ signed, found = some signed → signed ∈ events ∧ ∃ other,
        CreditEvent.fromPayload C signed.payload = .ok other ∧
          Matches event.issuerPeerId event.kind event.dedupeKey other) ∧
      (found = none → ∀ signed ∈ events, ∀ other,
        CreditEvent.fromPayload C signed.payload = .ok other →
          ¬ Matches event.issuerPeerId event.kind event.dedupeKey other) := firstMatching_ok hfields
  obtain ⟨found, hfound, hsome, hnone⟩ := hfirst
  refine ⟨found, by simp [Ledger.findByDedupe, Ledger.listEvents, hevents, hfound], ?_, ?_⟩
  · intro signed heq
    obtain ⟨hin, other, hother, hmatch⟩ := hsome signed heq
    obtain ⟨path, shown, hfile, hshown, hlisted⟩ := (hmem signed).mp hin
    have hsame : shown = other := by
      have hsame := (verify_ok.mp hshown.2).1.fields.symm.trans hother
      injection hsame
    subst hsame
    simp only [listed, Bool.and_eq_true, decide_eq_true_eq, categoryMatches_global] at hlisted
    exact ⟨path, shown, ⟨Ledger.mem_sorted.mp hfile, hother⟩, hshown, ⟨hmatch, hlisted.1⟩,
      hlisted.2⟩
  · intro heq path signed other hholds hshown hanswers
    by_contra haccounting
    rw [Bool.not_eq_true] at haccounting
    refine hnone heq signed ?_ other hholds.2 hanswers.1
    rw [hmem]
    refine ⟨path, other, Ledger.mem_sorted.mpr hholds.1, hshown, ?_⟩
    simp only [listed, Bool.and_eq_true, decide_eq_true_eq, categoryMatches_global]
    exact ⟨hanswers.2, haccounting⟩

/-! ### Clear calls -/

/-- The lookup for an event will see the recorded ones with its key: each that may
answer has its subject, is in no accounting category, can be read and still
verifies; and no recorded event with another key has its file. -/
structure Clear (C : Codec) (env : Environment) (ledger : Ledger) (event : CreditEvent) :
    Prop where
  seen : event.dedupeKey ≠ "" → ∀ path signed other, ledger.Holds C path signed other →
    Answers event other → other.subjectPeerId = event.subjectPeerId ∧
      other.accounting = false ∧ env.unreadable path = false ∧ verify C env signed = .ok other
  apart : ∀ path signed other, ledger.Holds C path signed other → other.dedupeKey ≠ "" →
    path = event.path C → SameKey other event

theorem SameKey.symm (h : SameKey event other) : SameKey other event := by
  obtain ⟨hissuer, hsubject, hkind, hkey⟩ := h
  exact ⟨hissuer.symm, hsubject.symm, hkind.symm, hkey.symm⟩

theorem SameKey.trans {third : CreditEvent} (h : SameKey event other) (h' : SameKey other third) :
    SameKey event third :=
  ⟨h.1.trans h'.1, h.2.1.trans h'.2.1, h.2.2.1.trans h'.2.2.1, h.2.2.2.trans h'.2.2.2⟩

theorem SameKey.answers (h : SameKey event other) : Answers event other :=
  ⟨⟨h.1.symm, h.2.2.1.symm, h.2.2.2.symm⟩, .inr h.2.1.symm⟩

/-- What a call with a verified event does on a ledger that shows what it looks for. -/
inductive Appended (C : Codec) (ledger : Ledger) (signed : SignedPayload) (event : CreditEvent) :
    Ledger × Receipt → Prop
  | already {path : EventPath} {existing : SignedPayload} {other : CreditEvent}
      (holds : ledger.Holds C path existing other) (key : event.dedupeKey ≠ "")
      (same : SameKey event other) :
      Appended C ledger signed event (ledger, other.receipt C .alreadyRecorded)
  | new (fresh : event.dedupeKey ≠ "" → ∀ path existing other,
        ledger.Holds C path existing other → ¬ SameKey event other) :
      Appended C ledger signed event
        (ledger.write C event signed, event.receipt C (.recorded (event.path C)))

/-- **Appending.**  A clear call with a verified event answers with the recorded event
that has its key, or records it when there is none. -/
theorem append_ok (hfiled : ledger.Filed C) (hverify : verify C env signed = .ok event)
    (hclear : Clear C env ledger event) :
    ∃ answer, ledger.append C env signed = .ok answer ∧
      Appended C ledger signed event answer := by
  by_cases hkey : event.dedupeKey = ""
  · refine ⟨_, ?_, .new fun hne => absurd hkey hne⟩
    simp [Ledger.append, Ledger.existing, hverify, hkey, Ledger.conclude, pure, Except.pure]
  have hfind : ∃ found, ledger.findByDedupe C env event.issuerPeerId event.subjectPeerId
        event.kind event.dedupeKey = .ok found ∧
      (∀ signed, found = some signed → ∃ path other, ledger.Holds C path signed other ∧
        Shown C env path signed other ∧ Answers event other ∧ other.accounting = false) ∧
      (found = none → ∀ path signed other, ledger.Holds C path signed other →
        Shown C env path signed other → Answers event other → other.accounting = true) :=
    findByDedupe_ok hfiled event
  obtain ⟨found, hfound, hsome, hnone⟩ := hfind
  have happend : ledger.append C env signed =
      ledger.conclude C env event signed found := by
    simp only [Ledger.append, Ledger.existing, hverify, if_neg hkey, hfound, ok_bind]
  cases found with
  | none =>
    refine ⟨_, happend, .new ?_⟩
    intro _ path existing other hholds hsame
    obtain ⟨_, hdev, hread, hother⟩ := hclear.seen hkey path existing other hholds hsame.answers
    have hdev' := hnone rfl path existing other hholds ⟨hread, hother⟩ hsame.answers
    rw [hdev] at hdev'
    cases hdev'
  | some existing =>
    obtain ⟨path, other, hholds, hshown, hanswers, _⟩ := hsome existing rfl
    obtain ⟨hsubject, _⟩ := hclear.seen hkey path existing other hholds hanswers
    obtain ⟨⟨hissuer, hkind, hdedupe⟩, _⟩ := hanswers
    have hpolicy : verifyWithPolicy C env.policy (env.issuerTier event.issuerPeerId) existing =
        .ok other := by
      have hverified := hshown.2
      simp only [verify, hholds.2, ok_bind, hissuer] at hverified
      exact hverified
    refine ⟨_, ?_, .already hholds hkey ⟨hissuer.symm, hsubject.symm, hkind.symm, hdedupe.symm⟩⟩
    rw [happend]
    simp only [Ledger.conclude, hpolicy, ok_bind]
    rfl

/-! ### Runs -/

theorem Ledger.Sound.same {signed' : SignedPayload} {path' : EventPath} (h : ledger.Sound C)
    (hholds : ledger.Holds C path signed event) (hholds' : ledger.Holds C path' signed' other)
    (hkey : event.dedupeKey ≠ "") (hsame : SameKey event other) : event = other := by
  have hpath := h.once path signed event path' signed' other hholds hholds' hkey hsame
  have hfile : signed = signed' := by
    have hget := hholds.1
    rw [hpath, hholds'.1] at hget
    injection hget with hget
    exact hget.symm
  have hfields := hholds.2
  rw [hfile, hholds'.2] at hfields
  injection hfields with hfields
  exact hfields.symm

theorem Ledger.get?_write {found : SignedPayload} :
    (ledger.write C event signed).files.get? path = some found ↔
      (path = event.path C ∧ found = signed) ∨
        (path ≠ event.path C ∧ ledger.files.get? path = some found) := by
  simp only [Ledger.write, Dict.get?_set]
  by_cases heq : path = event.path C
  · simp [heq, eq_comm]
  · simp [heq]

theorem Ledger.Sound.write (h : ledger.Sound C) (hgenuine : Genuine C signed event)
    (hfresh : event.dedupeKey ≠ "" → ∀ path existing other,
      ledger.Holds C path existing other → ¬ SameKey event other) :
    (ledger.write C event signed).Sound C := by
  have hsplit : ∀ path found other, (ledger.write C event signed).Holds C path found other →
      (path = event.path C ∧ other = event) ∨ ledger.Holds C path found other := by
    intro path found other hholds
    rcases Ledger.get?_write.mp hholds.1 with ⟨hpath, heq⟩ | ⟨_, hget⟩
    · refine .inl ⟨hpath, ?_⟩
      have hfields := hholds.2
      rw [heq, hgenuine.fields] at hfields
      injection hfields with hfields
      exact hfields.symm
    · exact .inr ⟨hget, hholds.2⟩
  constructor
  · intro path found hget
    rcases Ledger.get?_write.mp hget with ⟨hpath, heq⟩ | ⟨_, hget⟩
    · rw [heq, hpath]
      exact ⟨event, hgenuine, rfl⟩
    · exact h.filed path found hget
  · intro path found first path' found' second hfirst hsecond hkey hsame
    rcases hsplit path found first hfirst with ⟨hpath, heq⟩ | hold
    · rcases hsplit path' found' second hsecond with ⟨hpath', _⟩ | hold'
      · rw [hpath, hpath']
      · rw [heq] at hkey hsame
        exact absurd hsame (hfresh hkey path' found' second hold')
    · rcases hsplit path' found' second hsecond with ⟨_, heq'⟩ | hold'
      · rw [heq'] at hsame
        have hkey' : event.dedupeKey ≠ "" := by
          rw [← hsame.2.2.2]
          exact hkey
        exact absurd hsame.symm (hfresh hkey' path found first hold)
      · exact h.once path found first path' found' second hold hold' hkey hsame

/-- The event a call submits, once it is signed and verified. -/
def submitted (C : Codec) (env : Environment) (call : Call) : Except Failure CreditEvent := do
  let signed ← call.signed C env
  verify C env signed

variable {call : Call}

theorem submitted_ok : submitted C env call = .ok event ↔
    ∃ signed, call.signed C env = .ok signed ∧ verify C env signed = .ok event := by
  simp only [submitted, bind_ok]

theorem perform_verified {answer : Ledger × Receipt} (h : perform C ledger env call = .ok answer) :
    ∃ event, submitted C env call = .ok event := by
  simp only [perform, Ledger.append, bind_ok] at h
  obtain ⟨signed, hsigned, event, hverify, _⟩ := h
  exact ⟨event, submitted_ok.mpr ⟨signed, hsigned, hverify⟩⟩

/-- Every call of the run is clear for the event it submits. -/
def Clears (C : Codec) (ledger : Ledger) : List (Environment × Call) → Prop
  | [] => True
  | (env, call) :: rest =>
      (∀ event, submitted C env call = .ok event → Clear C env ledger event) ∧
        Clears C (ledger.next C env call) rest

/-- **One call.**  On a sound ledger a clear call with a verified event appends it. -/
theorem perform_ok (h : ledger.Filed C) (hevent : submitted C env call = .ok event)
    (hclear : Clear C env ledger event) :
    ∃ signed answer, Genuine C signed event ∧ perform C ledger env call = .ok answer ∧
      Appended C ledger signed event answer := by
  obtain ⟨signed, hsigned, hverify⟩ := submitted_ok.mp hevent
  obtain ⟨answer, happend, happended⟩ := append_ok h hverify hclear
  refine ⟨signed, answer, (verify_ok.mp hverify).1, ?_, happended⟩
  simp only [perform, hsigned, ok_bind, happend]

theorem next_of_ok {answer : Ledger × Receipt} (h : perform C ledger env call = .ok answer) :
    ledger.next C env call = answer.1 := by
  simp only [Ledger.next, h]

theorem next_cases (h : ledger.Filed C)
    (hclear : ∀ event, submitted C env call = .ok event → Clear C env ledger event) :
    ledger.next C env call = ledger ∨ ∃ signed event, Genuine C signed event ∧
      Clear C env ledger event ∧
      (event.dedupeKey ≠ "" → ∀ path existing other, ledger.Holds C path existing other →
        ¬ SameKey event other) ∧
      ledger.next C env call = ledger.write C event signed := by
  cases hperform : perform C ledger env call with
  | error failure =>
    left
    simp only [Ledger.next, hperform]
  | ok answer =>
    obtain ⟨event, hevent⟩ := perform_verified hperform
    obtain ⟨signed, answer', hgenuine, hperform', happended⟩ :=
      perform_ok h hevent (hclear event hevent)
    rw [next_of_ok hperform']
    cases happended with
    | already => exact .inl rfl
    | new hfresh => exact .inr ⟨signed, event, hgenuine, hclear event hevent, hfresh, rfl⟩

theorem Ledger.Sound.next (h : ledger.Sound C)
    (hclear : ∀ event, submitted C env call = .ok event → Clear C env ledger event) :
    (ledger.next C env call).Sound C := by
  rcases next_cases h.filed hclear with heq | ⟨signed, event, hgenuine, _, hfresh, heq⟩
  · rw [heq]
    exact h
  · rw [heq]
    exact h.write hgenuine hfresh

theorem Ledger.Holds.next (h : ledger.Holds C path signed event) (hsound : ledger.Sound C)
    (hkey : event.dedupeKey ≠ "")
    (hclear : ∀ event, submitted C env call = .ok event → Clear C env ledger event) :
    (ledger.next C env call).Holds C path signed event := by
  rcases next_cases hsound.filed hclear with heq | ⟨new, written, _, hclear, hfresh, heq⟩
  · rw [heq]
    exact h
  · rw [heq]
    refine ⟨Ledger.get?_write.mpr (.inr ⟨?_, h.1⟩), h.2⟩
    intro hpath
    have hsame := hclear.apart path signed event h hkey hpath
    have hkey' : written.dedupeKey ≠ "" := by
      rw [← hsame.2.2.2]
      exact hkey
    exact hfresh hkey' path signed event h hsame.symm

theorem Clears.split {before rest : List (Environment × Call)} :
    Clears C ledger (before ++ rest) ↔
      Clears C ledger before ∧ Clears C (after C ledger before) rest := by
  induction before generalizing ledger with
  | nil => simp [Clears, after]
  | cons step before ih =>
    simp only [List.cons_append, Clears, after, ih, and_assoc]

theorem after_append {before rest : List (Environment × Call)} :
    after C ledger (before ++ rest) = after C (after C ledger before) rest := by
  induction before generalizing ledger with
  | nil => rfl
  | cons step before ih =>
    exact ih

theorem Ledger.Sound.run {steps : List (Environment × Call)} (h : ledger.Sound C)
    (hclear : Clears C ledger steps) : (after C ledger steps).Sound C := by
  induction steps generalizing ledger with
  | nil => exact h
  | cons step steps ih =>
    exact ih (h.next hclear.1) hclear.2

theorem Ledger.Holds.run {steps : List (Environment × Call)}
    (h : ledger.Holds C path signed event) (hsound : ledger.Sound C) (hkey : event.dedupeKey ≠ "")
    (hclear : Clears C ledger steps) : (after C ledger steps).Holds C path signed event := by
  induction steps generalizing ledger with
  | nil => exact h
  | cons step steps ih =>
    exact ih (h.next hsound hkey hclear.1) (hsound.next hclear.1) hclear.2

theorem Ledger.sound_empty : Ledger.empty.Sound C := by
  constructor
  · intro path signed hget
    simp [Ledger.empty] at hget
  · intro path signed event path' signed' event' hholds
    simp [Ledger.Holds, Ledger.empty] at hholds

/-- What a run from the empty ledger should satisfy: no two events are held with one
key, and a call whose event has the key of a recorded one writes nothing and answers
with the id of that event. -/
def OncePerKey (C : Codec) (steps : List (Environment × Call)) : Prop :=
  (after C .empty steps).Once C ∧
    ∀ first env call between env' call' last,
      steps = first ++ (env, call) :: (between ++ (env', call') :: last) →
      ∀ ledger receipt path event event',
        perform C (after C .empty first) env call = .ok (ledger, receipt) →
        receipt.status = .recorded path →
        submitted C env call = .ok event → submitted C env' call' = .ok event' →
        event.dedupeKey ≠ "" → SameKey event event' →
        ∃ receipt', perform C (after C .empty (first ++ (env, call) :: between)) env' call' =
            .ok (after C .empty (first ++ (env, call) :: between), receipt') ∧
          receipt'.status = .alreadyRecorded ∧ receipt'.eventId = receipt.eventId

/-- **Events are recorded once for each dedupe key** in every run whose calls are clear. -/
theorem recorded_once_per_key (C : Codec) (steps : List (Environment × Call))
    (h : Clears C .empty steps) : OncePerKey C steps := by
  refine ⟨(Ledger.sound_empty.run h).once, ?_⟩
  intro first env call between env' call' last hsteps ledger receipt path event event'
    hperform hstatus hevent hevent' hkey hsame
  rw [hsteps, Clears.split] at h
  obtain ⟨hfirst, hcall, hrest⟩ := h
  rw [Clears.split] at hrest
  obtain ⟨hbetween, hcall', _⟩ := hrest
  have hsound := Ledger.sound_empty.run hfirst
  -- the first call recorded its event
  obtain ⟨signed, answer, hgenuine, hanswer, happended⟩ :=
    perform_ok hsound.filed hevent (hcall event hevent)
  rw [hperform] at hanswer
  injection hanswer with hanswer
  have hholds : ledger.Holds C (event.path C) signed event ∧
      receipt.eventId = event.eventId C := by
    cases happended with
    | already =>
      injection hanswer with _ hreceipt
      rw [hreceipt] at hstatus
      cases hstatus
    | new =>
      injection hanswer with hledger hreceipt
      rw [hledger, hreceipt]
      exact ⟨⟨Ledger.get?_write.mpr (.inl ⟨rfl, rfl⟩), hgenuine.fields⟩, rfl⟩
  -- it is still there at the second call
  have hnext : (after C .empty first).next C env call = ledger := next_of_ok hperform
  have hafter : after C .empty (first ++ (env, call) :: between) = after C ledger between := by
    rw [after_append, after, hnext]
  rw [hnext] at hbetween hcall'
  have hledger : ledger.Sound C := by
    rw [← hnext]
    exact hsound.next hcall
  have hsound' := hledger.run hbetween
  have hstays := hholds.1.run hledger hkey hbetween
  rw [hafter]
  -- so the second call answers with an event of its key, and there is one only
  obtain ⟨signed', answer', _, hanswer', happended'⟩ :=
    perform_ok hsound'.filed hevent' (hcall' event' hevent')
  have hkey' : event'.dedupeKey ≠ "" := by
    rw [← hsame.2.2.2]
    exact hkey
  cases happended' with
  | new hfresh => exact absurd hsame.symm (hfresh hkey' _ _ _ hstays)
  | already holds key same =>
    refine ⟨_, hanswer', rfl, ?_⟩
    have heq := hsound'.same hstays holds hkey (hsame.trans same)
    rw [hholds.2, heq]
    rfl

/-! ### Two records of one key -/

/-- A codec for the runs below, whose documents differ in their time or their key. -/
def Codec.sample : Codec where
  str := fun value => value.asStr?.getD ""
  float := fun value => match value with
    | .float value text => .ok ⟨value, text⟩
    | _ => .error "TypeError"
  dict := .ok
  fromisoformat := fun _ => .ok ()
  canonicalJson := fun value =>
    ((value.get? "created_at").bind Json.asStr?).getD "" ++
      ((value.get? "dedupe_key").bind Json.asStr?).getD ""
  sha256 := id
  publicKey := id
  signature := fun key text => key ++ ":" ++ text
  verifies := fun key signature text => signature = key ++ ":" ++ text

def sampleEnvironment (now : String) : Environment where
  policy := ⟨[], false⟩
  issuerTier := fun _ => none
  now
  unreadable := fun _ => false

/-- A hold of a task in a category, as the task balance records it. -/
def sampleHold (category : String) : Recording where
  subjectPeerId := "peer"
  issuerPeerId := "peer"
  privateKey := "peer"
  kind := "task_hold"
  amount := some ⟨some 5, "5.0"⟩
  role := "consumer"
  category
  subjectId := "task"
  evidenceHash := ""
  reason := "hold"
  dedupeKey := "hold:task"
  metadata := .obj []

/-- The hold is recorded at one time and again at a later one. -/
def sampleCalls (category : String) : List (Environment × Call) :=
  [(sampleEnvironment "1", .record (sampleHold category)),
    (sampleEnvironment "2", .record (sampleHold category))]

/-- The event of a hold that is recorded at a time. -/
def sampleEvent (category now : String) : CreditEvent :=
  (sampleHold category).event ⟨some 5, "5.0"⟩ now

theorem sampleCalls_clears : Clears .sample .empty (sampleCalls "general") := by
  refine ⟨?_, ?_, trivial⟩
  · intro event _
    constructor
    · intro _ path signed other hholds
      simp [Ledger.Holds, Ledger.empty] at hholds
    · intro path signed other hholds
      simp [Ledger.Holds, Ledger.empty] at hholds
  · intro event hevent
    have hsecond : event = sampleEvent "general" "2" := by
      injection hevent with hevent
      exact hevent.symm
    have hfirst : ∀ path signed other, (Ledger.empty.next .sample (sampleEnvironment "1")
        (.record (sampleHold "general"))).Holds .sample path signed other →
        path = ("peer", "1hold:task.json") ∧ other = sampleEvent "general" "1" ∧
          verify .sample (sampleEnvironment "2") signed = .ok other := by
      intro path signed other hholds
      rcases Ledger.get?_write.mp hholds.1 with ⟨hpath, heq⟩ | ⟨_, hget⟩
      · have hother : other = sampleEvent "general" "1" := by
          have hfields := hholds.2
          rw [heq] at hfields
          injection hfields with hfields
          exact hfields.symm
        rw [hpath, hother, heq]
        exact ⟨rfl, rfl, rfl⟩
      · simp [Ledger.empty] at hget
    rw [hsecond]
    constructor
    · intro _ path signed other hholds _
      obtain ⟨_, hother, hverify⟩ := hfirst path signed other hholds
      rw [hother] at hverify ⊢
      exact ⟨rfl, by decide, rfl, hverify⟩
    · intro path signed other hholds _ _
      rw [(hfirst path signed other hholds).2.1]
      exact ⟨rfl, rfl, rfl, rfl⟩

theorem recorded_once_per_key_sample : OncePerKey .sample (sampleCalls "general") :=
  recorded_once_per_key .sample (sampleCalls "general") sampleCalls_clears

theorem accounting_key_recorded_twice : ¬ ∀ C steps, OncePerKey C steps := by
  intro hall
  have honce := (hall .sample (sampleCalls "dev:task_balance")).1
  have hpath := honce ("peer", "1hold:task.json")
    (signCreditEvent .sample (sampleEvent "dev:task_balance" "1") "peer")
    (sampleEvent "dev:task_balance" "1") ("peer", "2hold:task.json")
    (signCreditEvent .sample (sampleEvent "dev:task_balance" "2") "peer")
    (sampleEvent "dev:task_balance" "2") ⟨rfl, rfl⟩ ⟨rfl, rfl⟩ (by decide) ⟨rfl, rfl, rfl, rfl⟩
  exact absurd hpath (by decide)

end Credits
