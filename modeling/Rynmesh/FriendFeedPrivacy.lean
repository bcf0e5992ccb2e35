import Mathlib.Data.String.Basic
import Rynmesh.FriendFeed
import Rynmesh.Noninterference

/-!
# What a friend learns from a feed

Two publishers agree for a relationship when they know the same friend under it and
permit it the same publications, with the same content.  Each answer to the friend
is the same on publishers that agree (`Agree.page`, `Agree.accept` and so on), and
an owner's edit of a publication the friend is not permitted keeps agreement
(`agree_change`).  Over a whole run the friend learns nothing else
(`friend_learns_nothing`).
-/

namespace Feed

open Checked

/-- Publishers that a relationship cannot tell apart. -/
structure Agree (rid : String) (node other : Node) : Prop where
  friend : node.friends.relationship rid = other.friends.relationship rid
  visible : ∀ id, node.visible rid id = other.visible rid id
  content : ∀ id publication, node.visible rid id = some publication →
    node.resolve publication.card.libraryId = other.resolve publication.card.libraryId

theorem agree_equivalence (rid : String) : Equivalence (Agree rid) where
  refl node := ⟨rfl, fun _ => rfl, fun _ _ _ => rfl⟩
  symm := by
    intro node other h
    refine ⟨h.friend.symm, fun id => (h.visible id).symm, ?_⟩
    intro id publication hvisible
    rw [← h.visible id] at hvisible
    exact (h.content id publication hvisible).symm
  trans := by
    intro node other third h h'
    refine ⟨h.friend.trans h'.friend, fun id => (h.visible id).trans (h'.visible id), ?_⟩
    intro id publication hvisible
    have hother := hvisible
    rw [h.visible id] at hother
    exact (h.content id publication hvisible).trans (h'.content id publication hother)

/-! ### The permitted publications -/

variable {publication : Publication}

variable {rid : String}

theorem Row.permitted_some {row : Row} (h : row.permitted rid = some publication) :
    row.published = some publication := by
  unfold Row.permitted at h
  split at h
  · next published hpublished =>
    split at h
    · rw [hpublished]
      exact h
    · cases h
  · cases h

variable {id : String}

variable {node : Node}

theorem Node.visible_id (h : node.visible rid id = some publication) : publication.id = id := by
  obtain ⟨row, hrow, hpermitted⟩ := Option.bind_eq_some_iff.mp h
  exact (node.feed.keyed id row hrow).2 publication (Row.permitted_some hpermitted)

theorem Node.mem_permittedRows :
    publication ∈ node.permittedRows rid ↔ ∃ id, node.visible rid id = some publication := by
  unfold Node.permittedRows
  rw [List.mem_filterMap]
  constructor
  · rintro ⟨row, hrow, hpermitted⟩
    obtain ⟨id, hid⟩ := Dict.mem_values_iff.mp hrow
    exact ⟨id, Option.bind_eq_some_iff.mpr ⟨row, hid, hpermitted⟩⟩
  · rintro ⟨id, hvisible⟩
    obtain ⟨row, hrow, hpermitted⟩ := Option.bind_eq_some_iff.mp hvisible
    exact ⟨row, Dict.mem_values_iff.mpr ⟨id, hrow⟩, hpermitted⟩

theorem permitted_ids_sublist (rid : String) (entries : List (String × Row))
    (hkeyed : ∀ entry ∈ entries, entry.2.Keyed entry.1) :
    ((entries.map Prod.snd).filterMap fun row => row.permitted rid).map Publication.id
      |>.Sublist (entries.map Prod.fst) := by
  induction entries with
  | nil => exact List.Sublist.refl _
  | cons entry rest ih =>
    have hrest := ih fun other hother => hkeyed other (.tail _ hother)
    rw [List.map_cons, List.filterMap_cons, List.map_cons]
    cases hpermitted : entry.2.permitted rid with
    | none => exact hrest.cons _
    | some publication =>
      have hid := (hkeyed entry (.head _)).2 publication
        (Row.permitted_some hpermitted)
      simp only [List.map_cons, hid]
      exact hrest.cons_cons _

theorem Node.permittedRows_ids_nodup (node : Node) (rid : String) :
    ((node.permittedRows rid).map Publication.id).Nodup := by
  refine (node.feed.rows.keys_nodup).sublist (permitted_ids_sublist rid _ ?_)
  intro entry hentry
  exact node.feed.keyed entry.1 entry.2 (Dict.get?_eq_some_iff.mpr hentry)

theorem before_total (a b : Publication) : a.before b ∨ b.before a := by
  rcases lt_trichotomy a.publishedAt b.publishedAt with h | h | h
  · exact .inr (.inl h)
  · rcases le_total a.id b.id with hid | hid
    · exact .inl (.inr ⟨h, hid⟩)
    · exact .inr (.inr ⟨h.symm, hid⟩)
  · exact .inl (.inl h)

theorem before_trans {a b c : Publication} (hab : a.before b) (hbc : b.before c) : a.before c := by
  rcases hab with hab | ⟨hab, hid⟩ <;> rcases hbc with hbc | ⟨hbc, hid'⟩
  · exact .inl (hbc.trans hab)
  · exact .inl (hbc ▸ hab)
  · exact .inl (hab ▸ hbc)
  · exact .inr ⟨hab.trans hbc, hid.trans hid'⟩

theorem before_antisymm {a b : Publication} (hab : a.before b) (hba : b.before a) :
    a.id = b.id := by
  rcases hab with hab | ⟨_, hid⟩
  · rcases hba with hba | ⟨hba, _⟩
    · exact absurd hab (lt_asymm hba)
    · exact absurd hab (hba ▸ lt_irrefl _)
  · rcases hba with hba | ⟨_, hid'⟩
    · grind
    · exact le_antisymm hid hid'

instance : Std.Total Publication.before := ⟨before_total⟩

instance : IsTrans Publication Publication.before := ⟨fun _ _ _ => before_trans⟩

theorem Agree.permittedRows {other : Node} (h : Agree rid node other) :
    (node.permittedRows rid).insertionSort Publication.before =
      (other.permittedRows rid).insertionSort Publication.before := by
  have hnodup := node.permittedRows_ids_nodup rid
  have hnodup' := other.permittedRows_ids_nodup rid
  have hmem : ∀ publication,
      publication ∈ node.permittedRows rid ↔ publication ∈ other.permittedRows rid := by
    intro publication
    rw [Node.mem_permittedRows, Node.mem_permittedRows]
    constructor
    · rintro ⟨id, hid⟩
      exact ⟨id, (h.visible id) ▸ hid⟩
    · rintro ⟨id, hid⟩
      exact ⟨id, (h.visible id).symm ▸ hid⟩
  have hperm : (node.permittedRows rid).Perm (other.permittedRows rid) :=
    (List.perm_ext_iff_of_nodup (List.Nodup.of_map _ hnodup) (List.Nodup.of_map _ hnodup')).mpr hmem
  refine List.Perm.eq_of_pairwise ?_ (List.pairwise_insertionSort _ _)
    (List.pairwise_insertionSort _ _)
    ((List.perm_insertionSort _ _).trans (hperm.trans (List.perm_insertionSort _ _).symm))
  intro a b ha hb hab hba
  rw [List.mem_insertionSort] at ha hb
  exact List.inj_on_of_nodup_map hnodup ha ((hmem b).mpr hb) (before_antisymm hab hba)

/-! ### Equal answers -/

theorem identity_ok {value : Json} (h : identity value = .ok id) : value.asStr? = some id := by
  simp only [identity, bind_ok, demand_ok, require_ok] at h
  obtain ⟨text, htext, _, _, h⟩ := h
  obtain rfl := pure_ok.mp h
  exact htext

theorem Node.active_ok {peerId : Option String} {relationship : Relationship}
    (h : node.active rid peerId = .ok relationship) : relationship.relationshipId = rid := by
  simp only [Node.active, bind_ok, demand_ok] at h
  obtain ⟨rid', hrid, row, hrow, _, _, h⟩ := h
  obtain rfl := pure_ok.mp h
  have hsame : some rid = some rid' := identity_ok hrid
  rw [node.friends.keyed rid' row hrow]
  exact (Option.some.inj hsame).symm

theorem Node.authorize_ok {identifier expectedRevision : Json} {relationship : Relationship}
    (h : node.authorize identifier relationship expectedRevision = .ok publication) :
    ∃ id, node.visible relationship.relationshipId id = some publication := by
  simp only [Node.authorize, bind_ok, demand_ok] at h
  obtain ⟨row, hrow, id, _, found, hvisible, h⟩ := h
  rw [Node.active_ok hrow] at hvisible
  have hfound : found = publication := by
    split at h
    · exact pure_ok.mp h
    · simp only [bind_ok] at h
      obtain ⟨_, _, _, _, h⟩ := h
      exact pure_ok.mp h
  rw [hfound] at hvisible
  exact ⟨id, hvisible⟩

variable {p : Platform} {rid : String} {node other : Node} {relationship : Relationship}

namespace Agree

theorem active (h : Agree rid node other) (peerId : Option String) :
    node.active rid peerId = other.active rid peerId := by
  refine bind_congr rfl ?_
  intro rid' hrid
  have hsame : some rid = some rid' := identity_ok hrid
  rw [← Option.some.inj hsame, h.friend]

theorem authorize (h : Agree rid node other) (hrid : relationship.relationshipId = rid)
    (identifier expectedRevision : Json) :
    node.authorize identifier relationship expectedRevision =
      other.authorize identifier relationship expectedRevision := by
  unfold Node.authorize
  rw [hrid]
  refine bind_congr (h.active _) ?_
  intro row hrow
  rw [Node.active_ok hrow]
  refine bind_congr rfl ?_
  intro id _
  rw [h.visible id]

theorem page (h : Agree rid node other) (hrid : relationship.relationshipId = rid)
    (cursor : Json) : node.page p relationship cursor = other.page p relationship cursor := by
  unfold Node.page
  rw [hrid]
  refine bind_congr (h.active _) ?_
  intro row hrow
  rw [Node.active_ok hrow, h.permittedRows]

theorem body (h : Agree rid node other) (hvisible : node.visible rid id = some publication) :
    node.body p publication.card = other.body p publication.card := by
  unfold Node.body
  rw [h.content id publication hvisible]

theorem perform (h : Agree rid node other) (hrid : relationship.relationshipId = rid)
    (request : Json) :
    node.perform p relationship request = other.perform p relationship request := by
  unfold Node.perform
  split
  · rw [h.page hrid]
  split
  · refine bind_congr (h.authorize hrid _ _) ?_
    intro publication hpublication
    obtain ⟨id, hvisible⟩ := Node.authorize_ok hpublication
    rw [hrid] at hvisible
    rw [h.body hvisible]
  · rfl

theorem conclude (h : Agree rid node other) (hrid : relationship.relationshipId = rid)
    (stage : Stage) : node.conclude p relationship stage = other.conclude p relationship stage := by
  cases stage with
  | listed page => rfl
  | fetched publication body =>
    exact bind_congr (h.authorize hrid _ _) fun _ _ => rfl

theorem accept (h : Agree rid node other) (hrid : relationship.relationshipId = rid)
    (wire : Json) : node.accept p wire relationship = other.accept p wire relationship := by
  unfold Node.accept
  rw [hrid]
  refine bind_congr (h.active _) ?_
  intro row hrow
  refine bind_congr rfl ?_
  intro request _
  rw [h.perform (Node.active_ok hrow)]

theorem complete (h : Agree rid node other) {work : Work}
    (hrid : work.relationship.relationshipId = rid) (random : Nat) :
    node.complete p work random = other.complete p work random := by
  have hstage : (work.stage >>= node.conclude p work.relationship) =
      (work.stage >>= other.conclude p work.relationship) :=
    bind_congr rfl fun stage _ => h.conclude hrid stage
  unfold Node.complete
  rw [hstage]

end Agree

/-! ### What others do -/

/-- What an edit leaves alone: the friends, the library, every other publication. -/
structure Frame (id : String) (node node' : Node) : Prop where
  friends : node'.friends = node.friends
  resolve : node'.resolve = node.resolve
  rows : ∀ j, j ≠ id → node'.feed.rows.get? j = node.feed.rows.get? j

theorem Frame.refl (id : String) (node : Node) : Frame id node node :=
  ⟨rfl, rfl, fun _ _ => rfl⟩

theorem frame_put (id : String) (node : Node) (row : Row) (hrow : row.Keyed id)
    (hroom : id ∈ node.feed.rows.keys ∨ node.feed.rows.entries.length < maxPublications) :
    Frame id node { node with feed := node.feed.put id row hrow hroom } := by
  refine ⟨rfl, rfl, ?_⟩
  intro j hj
  exact Dict.get?_set_ne _ _ hj

theorem Node.change_frame {operationId : String} {expectedRevision : Nat} {request : Json}
    {edit : Edit} {node' : Node} {row : Row}
    (h : node.change p id operationId expectedRevision request edit = .ok (node', row)) :
    Frame id node node' := by
  simp only [Node.change, bind_ok] at h
  obtain ⟨id', hid, operationId', _, _, _, h⟩ := h
  have hsame : some id = some id' := identity_ok hid
  obtain rfl := Option.some.inj hsame
  split at h
  · next previous hprevious =>
    split at h
    · simp only [bind_ok] at h
      obtain ⟨_, _, h⟩ := h
      obtain ⟨rfl, _⟩ := Prod.mk.inj (pure_ok.mp h)
      exact Frame.refl id node
    · simp only [bind_ok] at h
      obtain ⟨_, _, h⟩ := h
      split at h
      · cases h
      · obtain ⟨rfl, _⟩ := Prod.mk.inj (pure_ok.mp h)
        exact frame_put id node _ _ _
  · simp only [bind_ok] at h
    obtain ⟨_, _, h⟩ := h
    split at h
    · split at h
      · cases h
      · obtain ⟨rfl, _⟩ := Prod.mk.inj (pure_ok.mp h)
        exact frame_put id node _ _ _
    · cases h

/-- A publication may change in any way, as long as the friend sees the same of it. -/
theorem agree_of_frame {node' : Node} (h : Frame id node node')
    (hid : node.visible rid id = node'.visible rid id) : Agree rid node node' := by
  refine ⟨by rw [h.friends], ?_, fun _ _ _ => by rw [h.resolve]⟩
  intro j
  by_cases hj : j = id
  · rw [hj, hid]
  · unfold Node.visible
    rw [h.rows j hj]

/-- The node once a publication is erased. -/
def Node.without (node : Node) (id : String) : Node :=
  { node with
    feed :=
      { rows := node.feed.rows.erase id
        erased := id :: node.feed.erased
        keyed := by
          intro j row hget
          rw [Dict.get?_erase] at hget
          split at hget
          · cases hget
          · exact node.feed.keyed j row hget
        bounded := le_trans (List.length_filter_le _ _) node.feed.bounded } }

/-- A publication that is not permitted might as well not exist. -/
theorem agree_without (h : node.visible rid id = none) : Agree rid node (node.without id) := by
  have hrows : ∀ j, (node.without id).feed.rows.get? j =
      if j = id then none else node.feed.rows.get? j :=
    fun j => Dict.get?_erase _ _ _
  have hframe : Frame id node (node.without id) := by
    refine ⟨rfl, rfl, ?_⟩
    intro j hj
    rw [hrows, if_neg hj]
  refine agree_of_frame hframe ?_
  rw [h, Node.visible, hrows, if_pos rfl]
  rfl

/-! ### Runs -/

/-- A publisher with the requests it holds, under a relationship and a ticket. -/
structure Session where
  node : Node
  works : String → Nat → Option (Except String Work)
  owned : ∀ rid ticket work, works rid ticket = some (.ok work) →
    work.relationship.relationshipId = rid

theorem Node.accept_ok {wire : Json} {work : Work}
    (h : node.accept p wire relationship = .ok work) :
    work.relationship.relationshipId = relationship.relationshipId := by
  simp only [Node.accept, bind_ok] at h
  obtain ⟨row, hrow, _, _, h⟩ := h
  obtain rfl := pure_ok.mp h
  exact Node.active_ok hrow

/-- A request is held while its content is resolved. -/
def Session.hold (p : Platform) (s : Session) (relationship : Relationship) (ticket : Nat)
    (wire : Json) : Session where
  node := s.node
  works := fun rid other =>
    if rid = relationship.relationshipId ∧ other = ticket then
      some (s.node.accept p wire relationship)
    else s.works rid other
  owned := by
    intro rid other work hwork
    split at hwork
    · next heq =>
      rw [heq.1]
      exact Node.accept_ok (Option.some.inj hwork)
    · exact s.owned rid other work hwork

inductive Input
  | page (relationship : Relationship) (cursor : Json)
  | authorize (relationship : Relationship) (identifier expectedRevision : Json)
  | accept (relationship : Relationship) (ticket : Nat) (wire : Json)
  | complete (rid : String) (ticket random : Nat)
  | change (id operationId : String) (expectedRevision : Nat) (request : Json) (edit : Edit)
  | erase (id : String)
  | meet (friends : Friends)
  | restock (resolve : String → Option Bytes)

inductive Answer
  | silent
  | authorized (result : Except String Publication)
  | answered (result : Except String Json)

/-- What an input of a friend answers. -/
def Session.answer (p : Platform) (s : Session) : Input → Answer
  | .page relationship cursor => .answered (s.node.page p relationship cursor)
  | .authorize relationship identifier expectedRevision =>
      .authorized (s.node.authorize identifier relationship expectedRevision)
  | .complete rid ticket random =>
      match s.works rid ticket with
      | some work => .answered (work >>= fun work => s.node.complete p work random)
      | none => .silent
  | _ => .silent

def Session.next (p : Platform) (s : Session) : Input → Session
  | .accept relationship ticket wire => s.hold p relationship ticket wire
  | .change id operationId expectedRevision request edit =>
      match s.node.change p id operationId expectedRevision request edit with
      | .ok (node, _) => { s with node }
      | .error _ => s
  | .erase id => { s with node := s.node.without id }
  | .meet friends => { s with node := { s.node with friends } }
  | .restock resolve => { s with node := { s.node with resolve } }
  | _ => s

def publisher (p : Platform) : Machine Session Input Answer :=
  ⟨Session.answer p, Session.next p⟩

/-- The inputs that a relationship issues. -/
def Input.ofFriend (rid : String) : Input → Bool
  | .page relationship _ => relationship.relationshipId = rid
  | .authorize relationship _ _ => relationship.relationshipId = rid
  | .accept relationship _ _ => relationship.relationshipId = rid
  | .complete rid' _ _ => rid' = rid
  | _ => false

/-- An input about other friends, or about publications the friend is not permitted:
of the one that is edited the friend sees the same before and after, or nothing. -/
def Input.Hidden (p : Platform) (rid : String) (s : Session) : Input → Prop
  | .change id operationId expectedRevision request edit =>
      s.node.visible rid id =
        (s.next p (.change id operationId expectedRevision request edit)).node.visible rid id
  | .erase id => s.node.visible rid id = none
  | .meet friends => s.node.friends.relationship rid = friends.relationship rid
  | .restock resolve => ∀ id publication, s.node.visible rid id = some publication →
      s.node.resolve publication.card.libraryId = resolve publication.card.libraryId
  | _ => True

/-- A run in which all inputs but the friend's are hidden from it. -/
def HiddenRun (p : Platform) (rid : String) : Session → List Input → Prop
  | _, [] => True
  | s, i :: rest => (i.ofFriend rid = false → i.Hidden p rid s) ∧
      HiddenRun p rid (s.next p i) rest

/-- Sessions that a relationship cannot tell apart: they hold the same requests of it. -/
structure Session.Agree (rid : String) (s t : Session) : Prop where
  node : Feed.Agree rid s.node t.node
  works : s.works rid = t.works rid

theorem session_equivalence (rid : String) : Equivalence (Session.Agree rid) where
  refl _ := ⟨(agree_equivalence rid).refl _, rfl⟩
  symm h := ⟨(agree_equivalence rid).symm h.node, h.works.symm⟩
  trans h h' := ⟨(agree_equivalence rid).trans h.node h'.node, h.works.trans h'.works⟩

theorem publisher_respects (p : Platform) (rid : String) :
    (publisher p).Respects (Input.ofFriend rid) (Session.Agree rid) where
  answer := by
    intro s t i hi h
    cases i with
    | page relationship cursor =>
      have hrid : relationship.relationshipId = rid := of_decide_eq_true hi
      exact congrArg Answer.answered (h.node.page hrid cursor)
    | authorize relationship identifier expectedRevision =>
      have hrid : relationship.relationshipId = rid := of_decide_eq_true hi
      exact congrArg Answer.authorized (h.node.authorize hrid identifier expectedRevision)
    | complete rid' ticket random =>
      have hrid : rid' = rid := of_decide_eq_true hi
      show s.answer p (.complete rid' ticket random) = t.answer p (.complete rid' ticket random)
      have hworks : s.works rid ticket = t.works rid ticket := congrFun h.works ticket
      simp only [Session.answer, hrid, hworks]
      cases hwork : t.works rid ticket with
      | none => rfl
      | some result =>
        cases result with
        | error code => rfl
        | ok work =>
          have howned := t.owned rid ticket work hwork
          exact congrArg Answer.answered (h.node.complete howned random)
    | accept _ _ _ | change _ _ _ _ _ | erase _ | meet _ | restock _ => rfl
  next := by
    intro s t i hi h
    cases i with
    | accept relationship ticket wire =>
      have hrid : relationship.relationshipId = rid := of_decide_eq_true hi
      refine ⟨h.node, ?_⟩
      funext other
      have hworks : s.works rid other = t.works rid other := congrFun h.works other
      show (s.hold p relationship ticket wire).works rid other =
        (t.hold p relationship ticket wire).works rid other
      simp only [Session.hold, h.node.accept hrid, hworks]
    | page _ _ | authorize _ _ _ | complete _ _ _ => exact h
    | change _ _ _ _ _ | erase _ | meet _ | restock _ => cases hi

theorem agree_hidden {s : Session} {i : Input} (hi : i.ofFriend rid = false)
    (h : i.Hidden p rid s) : s.Agree rid (s.next p i) := by
  cases i with
  | accept relationship ticket wire =>
    have hrid : rid ≠ relationship.relationshipId := fun heq => of_decide_eq_false hi heq.symm
    refine ⟨(agree_equivalence rid).refl _, ?_⟩
    funext other
    exact (if_neg fun heq => hrid heq.1).symm
  | change id operationId expectedRevision request edit =>
    simp only [Input.Hidden, Session.next] at h ⊢
    split at h
    · next node' row hchange =>
      exact ⟨agree_of_frame (Node.change_frame hchange) h, rfl⟩
    · exact (session_equivalence rid).refl s
  | erase id => exact ⟨agree_without h, rfl⟩
  | meet friends => exact ⟨⟨h, fun _ => rfl, fun _ _ _ => rfl⟩, rfl⟩
  | restock resolve => exact ⟨⟨rfl, fun _ => rfl, h⟩, rfl⟩
  | page _ _ | authorize _ _ _ | complete _ _ _ => exact (session_equivalence rid).refl s

theorem HiddenRun.silent {s : Session} {inputs : List Input} (h : HiddenRun p rid s inputs) :
    (publisher p).Silent (Input.ofFriend rid) (Session.Agree rid) s inputs := by
  induction inputs generalizing s with
  | nil => exact trivial
  | cons i rest ih => exact ⟨fun hi => agree_hidden hi (h.1 hi), ih h.2⟩

/-- The session once a publication is erased. -/
def Session.without (s : Session) (id : String) : Session :=
  { s with node := s.node.without id }

/-- **A friend learns nothing of what it is not permitted.**  Two publishers that agree
for a relationship give it the same answers over any run of its requests, whatever
hidden inputs come between them, and still agree; and each publication that it is not
permitted is answered as one that does not exist. -/
theorem friend_learns_nothing (p : Platform) (rid : String) {s t : Session}
    {inputs inputs' : List Input} (hst : s.Agree rid t) (hs : HiddenRun p rid s inputs)
    (ht : HiddenRun p rid t inputs')
    (hsame : inputs.filter (Input.ofFriend rid) = inputs'.filter (Input.ofFriend rid)) :
    (publisher p).outputs (Input.ofFriend rid) s inputs =
        (publisher p).outputs (Input.ofFriend rid) t inputs' ∧
      ((publisher p).run s inputs).Agree rid ((publisher p).run t inputs') ∧
      ∀ id, s.node.visible rid id = none → (publisher p).outputs (Input.ofFriend rid) s inputs =
          (publisher p).outputs (Input.ofFriend rid) (s.without id)
            (inputs.filter (Input.ofFriend rid)) := by
  have hrespects := publisher_respects p rid
  obtain ⟨houtputs, hrun⟩ := Machine.outputs_eq (session_equivalence rid) hrespects hst
    hs.silent ht.silent hsame
  refine ⟨houtputs, hrun, ?_⟩
  intro id hid
  have hwithout : s.Agree rid (s.without id) := ⟨agree_without hid, rfl⟩
  exact (Machine.outputs_purge (session_equivalence rid) hrespects hwithout hs.silent).1

def samplePlatform : Platform where
  peerId := "publisher"
  digest _ := "digest"
  sha256 _ := "sha256"
  int _ := none
  number _ := .int 0
  openSealed _ _ := none
  loads _ := none
  sealFor _ value _ := value
  b64encode _ := ""

def friendId : String := "00000000000000000000000000000001"

def secretId : String := "00000000000000000000000000000002"

/-- A publication for one friend, under the friend's id. -/
def sampleRow (id : String) : Row where
  id
  draft := none
  published := some
    { id, revision := 1, card := ⟨"library", "sha256", 0, []⟩
      audience := ⟨false, [id]⟩, publishedAt := 0, updatedAt := 0 }
  stopped := false
  revision := 1
  operationId := friendId
  operationDigest := "digest"

def sampleNode : Node where
  feed := (Publications.empty.put secretId (sampleRow secretId)
    ⟨rfl, fun _ h => (Option.some.inj h) ▸ rfl⟩ (.inr (by decide))).put friendId
      (sampleRow friendId) ⟨rfl, fun _ h => (Option.some.inj h) ▸ rfl⟩ (.inr (by decide))
  friends :=
    { relationship := fun rid =>
        if rid = friendId then some ⟨friendId, "friend", "key", true⟩ else none
      keyed := by
        intro rid row h
        split at h
        · next hrid =>
          obtain rfl := Option.some.inj h
          exact hrid.symm
        · cases h }
  resolve _ := none

def sampleSession : Session := ⟨sampleNode, fun _ _ => none, fun _ _ _ h => nomatch h⟩

/-- The friend lists the feed, with one publication for it, while the other one is stopped. -/
def sampleInputs : List Input :=
  [.accept ⟨friendId, "friend", "key", true⟩ 0 .null, .change secretId secretId 1 .null .stop,
    .complete friendId 0 0, .page ⟨friendId, "friend", "key", true⟩ (.str "")]

theorem friend_learns_nothing_sample :
    (sampleNode.permittedRows friendId).length = 1 ∧
    (publisher samplePlatform).outputs (Input.ofFriend friendId) sampleSession sampleInputs =
      (publisher samplePlatform).outputs (Input.ofFriend friendId) (sampleSession.without secretId)
        (sampleInputs.filter (Input.ofFriend friendId)) := by
  have hhidden : sampleSession.node.visible friendId secretId = none := rfl
  have hst : sampleSession.Agree friendId (sampleSession.without secretId) :=
    ⟨agree_without hhidden, rfl⟩
  refine ⟨by decide +kernel, (friend_learns_nothing samplePlatform friendId hst ?_ ?_ ?_).1⟩
  · refine ⟨fun h => ?_, fun _ => ?_, fun h => ?_, fun h => ?_, trivial⟩
    · cases h
    · rfl
    · cases h
    · cases h
  · refine ⟨fun h => ?_, fun h => ?_, fun h => ?_, trivial⟩
    · cases h
    · cases h
    · cases h
  · rfl

end Feed
