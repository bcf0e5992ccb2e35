import Rynmesh.Provenance

/-!
# A provenance chain means its head

A chain that `verifyChain` accepts is determined by its head hash, since each link holds
the hash of the one before it and its own place (`walk_document`).  An accepted chain
begins with its only genesis link and keeps one content id (`Collected`).

`appendLink` extends an accepted chain to an accepted one when the new link is no genesis
link and has the fields that its type requires (`append_accepted`); it checks neither.
-/

namespace Provenance

open Checked Documents

variable {p : Platform} {now now' : String} {expectedContentId : Option String}

/-! ### The clock -/

theorem fromPayload_now (now now' : String) (payload : Mapping) :
    fromPayload p now' payload = (fromPayload p now payload).map fun link =>
      { link with issuedAt := textField p payload "issued_at" now' } := by
  unfold fromPayload
  show _ = Functor.map (f := Except Fault) _ _
  simp only [map_bind, map_pure]

/-- What is verified does not depend on when. -/
theorem verifyLink_now (now now' : String) (walk : Walk) (entry : SignedPayload × Nat) :
    verifyLink p now' expectedContentId walk entry =
      verifyLink p now expectedContentId walk entry := by
  unfold verifyLink
  rw [fromPayload_now now]
  cases fromPayload p now entry.1.payload <;> rfl

theorem walk_now (now now' : String) (chain : List SignedPayload) :
    walk p now' expectedContentId chain = walk p now expectedContentId chain := by
  unfold walk
  congr 1
  funext walked entry
  exact verifyLink_now now now' walked entry

/-! ### Documents -/

variable {signed : SignedPayload}

variable {document : Json}

theorem document_ok (h : signed.document = .ok document) :
    ∃ payload, signed.payload.document = .ok payload ∧
      document = .object [("alg", .str signed.alg), ("public_key", .str signed.publicKey),
        ("signature", .str signed.signature), ("payload", payload)] := by
  obtain ⟨payload, hpayload, heq⟩ := bind_ok.mp h
  exact ⟨payload, hpayload, (pure_ok.mp heq).symm⟩

theorem named_of_reads {payload : Mapping} {link : ProvenanceLink Mapping}
    (hreads : Reads p payload link) (hdocument : payload.document = .ok document) :
    payload.Named := by
  obtain ⟨value, hvalue, _⟩ := hreads.sequence
  obtain ⟨kind, hkind, _⟩ := hreads.linkType
  have hne : "sequence" ≠ "link_type" := by decide
  exact Mapping.named_of_sortable (Mapping.document_ok hdocument).1 hne hvalue hkind

/-- Links that are written alike are read alike. -/
theorem reads_of_document {a b : SignedPayload} {la lb : ProvenanceLink Mapping}
    (ha : a.document = .ok document) (hb : b.document = .ok document) (hla : Reads p a.payload la)
    (hlb : Reads p b.payload lb) :
    la.sequence = lb.sequence ∧ la.prevLinkHash = lb.prevLinkHash := by
  obtain ⟨da, hda, heqa⟩ := document_ok ha
  obtain ⟨db, hdb, heqb⟩ := document_ok hb
  have hsame : some da = some db := by
    have hget := congrArg (fun value => value.get? "payload") (heqa.symm.trans heqb)
    simpa using hget
  have hpayload : ∀ name, a.payload.get? name = b.payload.get? name := by
    intro name
    rw [← Mapping.get?_sorted (named_of_reads hla hda), ← Mapping.get?_sorted
      (named_of_reads hlb hdb), ← (Mapping.document_ok hda).2, ← (Mapping.document_ok hdb).2,
      Option.some.inj hsame]
  constructor
  · obtain ⟨value, hvalue, hint⟩ := hla.sequence
    obtain ⟨other, hother, hint'⟩ := hlb.sequence
    rw [hpayload, hother] at hvalue
    rw [← Option.some.inj hvalue, hint'] at hint
    exact (Except.ok.inj hint).symm
  · rw [← hla.previous, ← hlb.previous, textField, textField, hpayload]

/-- `chain_to_payload`. -/
def chainToPayload (chain : List SignedPayload) : Except Fault (List Json) :=
  chain.mapM SignedPayload.document

variable {chain : List SignedPayload}

theorem chainToPayload_concat {documents : List Json}
    (hchain : chainToPayload chain = .ok documents) (hsigned : signed.document = .ok document) :
    chainToPayload (chain ++ [signed]) = .ok (documents ++ [document]) := by
  unfold chainToPayload at hchain ⊢
  rw [List.mapM_append, hchain, List.mapM_cons, hsigned]
  rfl

theorem signedLinkHash_ok {hash : String} (h : signedLinkHash p signed = .ok hash) :
    ∃ document, signed.document = .ok document ∧ hash = p.sha256 (p.text document) := by
  obtain ⟨document, hdocument, heq⟩ := bind_ok.mp h
  exact ⟨document, hdocument, (pure_ok.mp heq).symm⟩

/-- Different verified payloads have different hashes: SHA-256 has no collisions, and the
canonical text tells documents apart. -/
def Binding (p : Platform) : Prop :=
  ∀ a b da db, verifySignedPayload p a = .ok () → verifySignedPayload p b = .ok () →
    a.document = .ok da → b.document = .ok db →
      p.sha256 (p.text da) = p.sha256 (p.text db) → da = db

/-! ### The head -/

variable {walked : Walk}

theorem expectedPrev_of_walk {last : SignedPayload}
    (h : walk p now expectedContentId chain = .ok walked) (hlast : chain.getLast? = some last) :
    signedLinkHash p last = .ok walked.expectedPrev := by
  obtain ⟨front, rfl⟩ := List.getLast?_eq_some_iff.mp hlast
  obtain ⟨_, _, hlink⟩ := walk_concat.mp h
  obtain ⟨_, _, _, _, hash, hhash, rfl⟩ := verifyLink_ok.mp hlink
  exact hhash

/-- The last links of two accepted chains, when these have one head. -/
theorem last_documents (hbinding : Binding p) {other : Option String}
    {A B : List SignedPayload} {a b : SignedPayload} {v w : Walk}
    (hA : walk p now expectedContentId (A ++ [a]) = .ok v)
    (hB : walk p now' other (B ++ [b]) = .ok w) (hhead : v.expectedPrev = w.expectedPrev) :
    ∃ document, a.document = .ok document ∧ b.document = .ok document ∧ A.length = B.length ∧
      ∃ v' w', walk p now expectedContentId A = .ok v' ∧ walk p now' other B = .ok w' ∧
        v'.expectedPrev = w'.expectedPrev := by
  obtain ⟨v', hv', hlinkA⟩ := walk_concat.mp hA
  obtain ⟨w', hw', hlinkB⟩ := walk_concat.mp hB
  obtain ⟨hverA, la, hla, hfollowsA, hash, hhash, rfl⟩ := verifyLink_ok.mp hlinkA
  obtain ⟨hverB, lb, hlb, hfollowsB, hash', hhash', rfl⟩ := verifyLink_ok.mp hlinkB
  obtain ⟨da, hda, rfl⟩ := signedLinkHash_ok hhash
  obtain ⟨db, hdb, rfl⟩ := signedLinkHash_ok hhash'
  have hsame : da = db := hbinding a b da db hverA hverB hda hdb hhead
  subst hsame
  have hreads := reads_of_document hda hdb (fromPayload_ok hla) (fromPayload_ok hlb)
  refine ⟨da, hda, hdb, ?_, v', w', hv', hw', ?_⟩
  · have hsequence := hreads.1
    rw [hfollowsA.sequence, hfollowsB.sequence] at hsequence
    exact Int.ofNat.inj hsequence
  · rw [← hfollowsA.previous, ← hfollowsB.previous]
    exact hreads.2

/-- **The head binds the chain**: chains with one head are written alike, from the head back
to the genesis link. -/
theorem walk_document (hbinding : Binding p) {other : Option String} (A : List SignedPayload) :
    ∀ (B : List SignedPayload) (v w : Walk), A.length = B.length →
      walk p now expectedContentId A = .ok v → walk p now' other B = .ok w →
      v.expectedPrev = w.expectedPrev →
      ∃ documents, chainToPayload A = .ok documents ∧ chainToPayload B = .ok documents := by
  induction A using List.reverseRecOn with
  | nil =>
    intro B v w hlength _ _ _
    have hnil : B = [] := List.eq_nil_of_length_eq_zero hlength.symm
    exact ⟨[], rfl, by rw [hnil]; rfl⟩
  | append_singleton A a ih =>
    intro B v w hlength hA hB hhead
    cases B using List.reverseRecOn with
    | nil => simp at hlength
    | append_singleton B b =>
      obtain ⟨document, ha, hb, hlen, v', w', hA', hB', hhead'⟩ :=
        last_documents hbinding hA hB hhead
      obtain ⟨documents, hdocA, hdocB⟩ := ih B v' w' hlen hA' hB' hhead'
      exact ⟨documents ++ [document], chainToPayload_concat hdocA ha,
        chainToPayload_concat hdocB hb⟩

/-! ### What is collected -/

/-- The links of an accepted chain as they are read. -/
structure Collected (p : Platform) (now : String) (chain : List SignedPayload) (walked : Walk)
    (links : List (ProvenanceLink Mapping)) : Prop where
  reads : List.Forall₂ (fun signed link => fromPayload p now signed.payload = .ok link) chain links
  types : links.map (·.linkType) = walked.linkTypes
  issuers : chain.map (·.publicKey) = walked.issuers
  content : ∀ link ∈ links, link.contentId = walked.contentId
  genesis : chain = [] ∨ ∃ rest, walked.linkTypes = linkGenesis :: rest ∧ linkGenesis ∉ rest

theorem walk_collected :
    ∀ {walked : Walk}, walk p now expectedContentId chain = .ok walked →
      ∃ links, Collected p now chain walked links := by
  induction chain using List.reverseRecOn with
  | nil =>
    intro walked h
    have hstart := Except.ok.inj h
    rw [← hstart]
    exact ⟨[], .nil, rfl, rfl, fun _ h => (List.not_mem_nil h).elim, Or.inl rfl⟩
  | append_singleton front last ih =>
    intro walked h
    obtain ⟨before, hbefore, hlink⟩ := walk_concat.mp h
    obtain ⟨links, hlinks⟩ := ih hbefore
    obtain ⟨_, link, hread, hfollows, hash, _, rfl⟩ := verifyLink_ok.mp hlink
    refine ⟨links ++ [link], ?_, ?_, ?_, ?_, Or.inr ?_⟩
    · exact List.rel_append hlinks.reads (.cons hread .nil)
    · simp [hlinks.types]
    · simp [hlinks.issuers, hfollows.issuer]
    · intro other hother
      by_cases hfirst : front.length = 0
      · have hnone : links = [] :=
          List.eq_nil_of_length_eq_zero (hlinks.reads.length_eq.symm.trans hfirst)
        rw [hnone, List.nil_append, List.mem_singleton] at hother
        rw [hother, if_pos hfirst]
      · rw [if_neg hfirst]
        rcases List.mem_append.mp hother with hother | hother
        · exact hlinks.content other hother
        · rw [List.mem_singleton.mp hother]
          exact (hfollows.later hfirst).2
    · by_cases hfirst : front.length = 0
      · have hnone : links = [] :=
          List.eq_nil_of_length_eq_zero (hlinks.reads.length_eq.symm.trans hfirst)
        refine ⟨[], ?_, List.not_mem_nil⟩
        rw [← hlinks.types, hnone, (hfollows.genesis hfirst).1]
        rfl
      · have hsome : front ≠ [] := fun hnil => hfirst (by rw [hnil]; rfl)
        obtain ⟨rest, hrest, hfresh⟩ := hlinks.genesis.resolve_left hsome
        refine ⟨rest ++ [link.linkType], by rw [hrest]; rfl, fun hmem => ?_⟩
        rcases List.mem_append.mp hmem with hmem | hmem
        · exact hfresh hmem
        · exact (hfollows.later hfirst).1 (List.mem_singleton.mp hmem).symm

theorem last_link {front : List SignedPayload} {last : SignedPayload}
    (h : walk p now expectedContentId (front ++ [last]) = .ok walked) :
    signedLinkHash p last = .ok walked.expectedPrev ∧
      ∃ link, fromPayload p now last.payload = .ok link ∧ link.sequence = front.length ∧
        link.contentId = walked.contentId := by
  obtain ⟨before, _, hlink⟩ := walk_concat.mp h
  obtain ⟨_, link, hread, hfollows, hash, hhash, rfl⟩ := verifyLink_ok.mp hlink
  refine ⟨hhash, link, hread, hfollows.sequence, ?_⟩
  by_cases hfirst : front.length = 0
  · rw [if_pos hfirst]
  · rw [if_neg hfirst]
    exact (hfollows.later hfirst).2

/-! ### One more link -/

/-- The link that is signed after an accepted chain. -/
def Addition.link (addition : Addition) (now : String) (chain : List SignedPayload)
    (walked : Walk) : ProvenanceLink Json :=
  { sequence := chain.length
    prevLinkHash := walked.expectedPrev
    linkType := addition.linkType
    contentId := walked.contentId
    issuerPeerId := addition.issuerPeerId
    payload := .object (addition.payload.getD [])
    issuedAt := now
    chainVersion := provenanceVersion }

/-- What `append_link` checks of its arguments. -/
def Addition.Checked (addition : Addition) (contentId : String) : Prop :=
  addition.linkType ∈ knownLinkTypes ∧ addition.resolvedContentId contentId = contentId

variable {addition : Addition}

theorem nextLink_of_checked (now' : String) (h : walk p now expectedContentId chain = .ok walked)
    (hsome : chain ≠ []) (hchecked : addition.Checked walked.contentId) :
    nextLink p now' chain addition =
      signPayload p (addition.link now' chain walked).unsignedPayload addition.privateKey := by
  obtain ⟨front, last, rfl⟩ := List.eq_nil_or_concat chain |>.resolve_left hsome
  rw [List.concat_eq_append] at h ⊢
  rw [← walk_now now now'] at h
  obtain ⟨hhash, link, hread, hsequence, hcontent⟩ := last_link h
  unfold nextLink
  rw [List.getLast?_concat, demand_some, ok_bind, require_of hchecked.1, ok_bind, hread, ok_bind,
    hcontent, require_of hchecked.2, ok_bind, hhash, ok_bind, hsequence, hchecked.2]
  simp [Addition.link]

theorem nextLink_of_not_checked (now' : String)
    (h : walk p now expectedContentId chain = .ok walked) (hsome : chain ≠ [])
    (hchecked : ¬ addition.Checked walked.contentId) :
    ∃ fault, nextLink p now' chain addition = .error fault := by
  obtain ⟨front, last, rfl⟩ := List.eq_nil_or_concat chain |>.resolve_left hsome
  rw [List.concat_eq_append] at h ⊢
  rw [← walk_now now now'] at h
  obtain ⟨_, link, hread, _, hcontent⟩ := last_link h
  unfold nextLink
  rw [List.getLast?_concat, demand_some, ok_bind]
  by_cases hknown : addition.linkType ∈ knownLinkTypes
  · have hdrift : ¬ addition.resolvedContentId walked.contentId = walked.contentId :=
      fun heq => hchecked ⟨hknown, heq⟩
    rw [require_of hknown, ok_bind, hread, ok_bind, hcontent, require, if_neg hdrift]
    exact ⟨_, rfl⟩
  · rw [require, if_neg hknown]
    exact ⟨_, rfl⟩

/-- What `append_link` does not check of its arguments. -/
def Addition.Complete (addition : Addition) : Prop :=
  addition.linkType ≠ linkGenesis ∧
    ∀ name ∈ required addition.linkType, name ∈ (addition.payload.getD []).map Prod.fst

theorem missing_eq_nil_iff {linkType : String} {fields : List (String × Json)} :
    missing linkType (.ofObject (.object fields)) = [] ↔
      ∀ name ∈ required linkType, name ∈ fields.map Prod.fst := by
  unfold missing
  rw [List.filter_eq_nil_iff]
  refine forall₂_congr fun name _ => ?_
  rw [Mapping.get?_ofObject, Option.isNone_iff_eq_none, ← Json.mem_keys_object,
    Json.mem_keys_iff, ← Option.isSome_iff_exists]
  exact Option.isSome_iff_ne_none.symm

/-- **The new link follows the chain** exactly when it is complete. -/
theorem verifyLink_next (now : String) (expectedContentId : Option String) (hsigns : p.Signs)
    (hsome : chain ≠ []) (hissuer : addition.issuerPeerId = p.publicKey addition.privateKey)
    (hknown : addition.linkType ∈ knownLinkTypes)
    (hsigned : signPayload p (addition.link now' chain walked).unsignedPayload
      addition.privateKey = .ok signed) :
    (∃ next, verifyLink p now expectedContentId walked (signed, chain.length) = .ok next) ↔
      addition.Complete := by
  have hverify := verify_signPayload hsigns hsigned
  rw [signPayload_eq] at hsigned
  have heq := Except.ok.inj hsigned
  have hread : fromPayload p now
      (.ofObject (addition.link now' chain walked).unsignedPayload) = _ :=
    fromPayload_unsigned _ rfl
  have hlength : chain.length ≠ 0 := fun h => hsome (List.eq_nil_of_length_eq_zero h)
  constructor
  · rintro ⟨next, hnext⟩
    obtain ⟨_, link, hlink, hfollows, _⟩ := verifyLink_ok.mp hnext
    rw [← heq, hread] at hlink
    have hlink := Except.ok.inj hlink
    rw [← hlink] at hfollows
    exact ⟨(hfollows.later hlength).1, missing_eq_nil_iff.mp hfollows.complete⟩
  · intro h
    have hpayload : signed.payload =
        .ofObject (addition.link now' chain walked).unsignedPayload := by
      rw [← heq]
    have hkey : signed.publicKey = p.publicKey addition.privateKey := by
      rw [← heq]
    have hhash : ∃ hash, signedLinkHash p signed = .ok hash := by
      unfold signedLinkHash SignedPayload.document
      rw [hpayload, Mapping.document_ofObject]
      exact ⟨_, rfl⟩
    obtain ⟨hash, hhash⟩ := hhash
    refine ⟨_, verifyLink_ok.mpr ⟨hverify, _, by rw [hpayload]; exact hread, ?_, hash, hhash,
      rfl⟩⟩
    refine ⟨rfl, hknown, rfl, rfl, ?_, ?_, fun hzero => absurd hzero hlength,
      fun _ => ⟨h.1, rfl⟩⟩
    · rw [hkey]
      exact hissuer
    · exact missing_eq_nil_iff.mpr h.2

/-! ### Chains -/

/-- An accepted chain. -/
structure Accepts (p : Platform) (now : String) (links : List RawLink)
    (expectedContentId expectedHeadHash : Option String) (v : ProvenanceVerification)
    (chain : List SignedPayload) (walked : Walk) : Prop where
  materialize : links.mapM (RawLink.materialize p) = .ok chain
  some : chain ≠ []
  walk : walk p now expectedContentId chain = .ok walked
  contentId : v.contentId = walked.contentId
  headHash : v.headHash = walked.expectedPrev
  linkTypes : v.linkTypes = walked.linkTypes
  issuers : v.issuers = walked.issuers
  linkCount : v.linkCount = chain.length
  head : ∀ expected ∈ expectedHeadHash, expected = "" ∨ walked.expectedPrev = expected

variable {v : ProvenanceVerification}

theorem verifyChain_ok {links : List RawLink} {expectedHeadHash : Option String} :
    verifyChain p now links expectedContentId expectedHeadHash = .ok v ↔
      ∃ chain walked, Accepts p now links expectedContentId expectedHeadHash v chain walked := by
  unfold verifyChain
  simp only [bind_ok, demand_ok, require_ok, pure_ok]
  constructor
  · rintro ⟨chain, hchain, last, hlast, walked, hwalk, hash, hhash, _, hhead, rfl⟩
    have hprev := expectedPrev_of_walk hwalk hlast
    rw [hhash] at hprev
    have hprev := Except.ok.inj hprev
    refine ⟨chain, walked, hchain, ?_, hwalk, rfl, hprev, rfl, rfl, rfl, ?_⟩
    · intro hnil
      rw [hnil] at hlast
      cases hlast
    · rw [← hprev]
      exact hhead
  · rintro ⟨chain, walked, h⟩
    obtain ⟨last, hlast⟩ := Option.isSome_iff_exists.mp (List.getLast?_isSome.mpr h.some)
    refine ⟨chain, h.materialize, last, hlast, walked, h.walk, walked.expectedPrev,
      expectedPrev_of_walk h.walk hlast, ⟨⟩, h.head, ?_⟩
    obtain ⟨_, _, _, _, _⟩ := v
    have hcontent := h.contentId
    have hhead := h.headHash
    have htypes := h.linkTypes
    have hissuers := h.issuers
    have hcount := h.linkCount
    simp only at hcontent hhead htypes hissuers hcount
    rw [hcontent, hhead, htypes, hissuers, hcount]

theorem materialize_links (chain : List SignedPayload) :
    (chain.map .link).mapM (RawLink.materialize p) = .ok chain := by
  induction chain with
  | nil => rfl
  | cons signed rest ih =>
    rw [List.map_cons, List.mapM_cons, ih]
    rfl

theorem Accepts.of_walk (hsome : chain ≠ [])
    (h : Provenance.walk p now expectedContentId chain = .ok walked) :
    ∃ v, verifyChain p now (chain.map .link) expectedContentId none = .ok v :=
  ⟨⟨walked.contentId, walked.expectedPrev, chain.length, walked.linkTypes, walked.issuers⟩,
    verifyChain_ok.mpr ⟨chain, walked, materialize_links chain, hsome, h, rfl, rfl, rfl, rfl, rfl,
      fun _ hnone => by cases hnone⟩⟩

/-- Two sequences of links are the same signed documents. -/
def SameLinks (p : Platform) (A B : List RawLink) : Prop :=
  ∃ a b documents, A.mapM (RawLink.materialize p) = .ok a ∧
    B.mapM (RawLink.materialize p) = .ok b ∧ chainToPayload a = .ok documents ∧
      chainToPayload b = .ok documents

/-- **Equal heads, equal chains.** -/
theorem sameLinks_of_head (hbinding : Binding p) {A B : List RawLink}
    {expectedA headA expectedB headB : Option String} {w : ProvenanceVerification}
    (hA : verifyChain p now A expectedA headA = .ok v)
    (hB : verifyChain p now' B expectedB headB = .ok w) (hhead : v.headHash = w.headHash) :
    SameLinks p A B := by
  obtain ⟨a, walkedA, hA⟩ := verifyChain_ok.mp hA
  obtain ⟨b, walkedB, hB⟩ := verifyChain_ok.mp hB
  rw [hA.headHash, hB.headHash] at hhead
  have hlength : a.length = b.length := by
    obtain ⟨_, _, ha⟩ := List.eq_nil_or_concat a |>.resolve_left hA.some
    obtain ⟨_, _, hb⟩ := List.eq_nil_or_concat b |>.resolve_left hB.some
    rw [List.concat_eq_append] at ha hb
    have hwalkA := hA.walk
    have hwalkB := hB.walk
    rw [ha] at hwalkA
    rw [hb] at hwalkB
    obtain ⟨_, _, _, hlength, _⟩ := last_documents hbinding hwalkA hwalkB hhead
    rw [ha, hb, List.length_append, List.length_append, hlength]
    rfl
  obtain ⟨documents, hdocA, hdocB⟩ := walk_document hbinding a b _ _ hlength hA.walk hB.walk hhead
  exact ⟨a, b, documents, hA.materialize, hB.materialize, hdocA, hdocB⟩

/-- Only the first link is a genesis link, and all links have one content id. -/
def OneGenesis (p : Platform) (now : String) (links : List RawLink) (contentId : String) : Prop :=
  ∃ chain parsed, links.mapM (RawLink.materialize p) = .ok chain ∧
    List.Forall₂ (fun signed link => fromPayload p now signed.payload = .ok link) chain parsed ∧
    (∃ rest, parsed.map (·.linkType) = linkGenesis :: rest ∧ linkGenesis ∉ rest) ∧
    ∀ link ∈ parsed, link.contentId = contentId

theorem oneGenesis_of_accepted {links : List RawLink} {expectedHeadHash : Option String}
    (h : verifyChain p now links expectedContentId expectedHeadHash = .ok v) :
    OneGenesis p now links v.contentId := by
  obtain ⟨chain, walked, h⟩ := verifyChain_ok.mp h
  obtain ⟨parsed, hparsed⟩ := walk_collected h.walk
  refine ⟨chain, parsed, h.materialize, hparsed.reads, ?_, ?_⟩
  · rw [hparsed.types]
    exact hparsed.genesis.resolve_left h.some
  · rw [h.contentId]
    exact hparsed.content

/-- A call of `append_link` either raises and leaves the chain as it was, or leaves a chain
that is accepted. -/
def Extends (p : Platform) (now now' : String) (expectedContentId : Option String)
    (chain : List SignedPayload) (addition : Addition) : Prop :=
  (∃ fault, appendLink p now chain addition = (.error fault, chain)) ∨
    ∃ signed v, (appendLink p now chain addition).1 = .ok signed ∧
      verifyChain p now' ((appendLink p now chain addition).2.map .link) expectedContentId none =
        .ok v

/-- **A chain is extended** exactly when the arguments are refused or the link is complete. -/
theorem append_accepted (hsigns : p.Signs) {expectedHeadHash : Option String}
    (h : verifyChain p now (chain.map .link) expectedContentId expectedHeadHash = .ok v)
    (hissuer : addition.issuerPeerId = p.publicKey addition.privateKey) (now'' : String) :
    Extends p now' now'' expectedContentId chain addition ↔
      (¬ addition.Checked v.contentId ∨ addition.Complete) := by
  obtain ⟨other, walked, h⟩ := verifyChain_ok.mp h
  have hsame : other = chain := Except.ok.inj (h.materialize.symm.trans (materialize_links chain))
  rw [hsame] at h
  rw [h.contentId]
  by_cases hchecked : addition.Checked walked.contentId
  · have hnext := nextLink_of_checked now' h.walk h.some hchecked
    rw [signPayload_eq] at hnext
    have hsigned := signPayload_eq (p := p) (addition.link now' chain walked).unsignedPayload
      addition.privateKey
    have hwalk := h.walk
    rw [← walk_now now now''] at hwalk
    have hcomplete := verifyLink_next now'' expectedContentId hsigns h.some hissuer hchecked.1
      hsigned
    generalize hlink : SignedPayload.mk _ _ _ _ = signed at hnext hsigned hcomplete
    have happend : appendLink p now' chain addition = (.ok signed, chain ++ [signed]) := by
      unfold appendLink
      rw [hnext]
      rfl
    unfold Extends
    rw [happend, ← hcomplete]
    constructor
    · intro hextends
      rcases hextends with ⟨_, hfault⟩ | ⟨_, w, _, hw⟩
      · cases congrArg Prod.fst hfault
      · obtain ⟨all, walked', hall⟩ := verifyChain_ok.mp hw
        have hsame : all = chain ++ [signed] :=
          Except.ok.inj (hall.materialize.symm.trans (materialize_links _))
        have hwalk' := hall.walk
        rw [hsame] at hwalk'
        obtain ⟨before, hbefore, hlink⟩ := walk_concat.mp hwalk'
        rw [hwalk] at hbefore
        rw [← Except.ok.inj hbefore] at hlink
        exact Or.inr ⟨walked', hlink⟩
    · intro hcase
      obtain ⟨next, hnext⟩ := hcase.resolve_left (not_not_intro hchecked)
      have hall := walk_concat.mpr ⟨walked, hwalk, hnext⟩
      obtain ⟨w, hw⟩ := Accepts.of_walk (by simp) hall
      exact Or.inr ⟨signed, w, rfl, hw⟩
  · obtain ⟨fault, hfault⟩ := nextLink_of_not_checked now' h.walk h.some hchecked
    refine ⟨fun _ => Or.inl hchecked, fun _ => Or.inl ⟨fault, ?_⟩⟩
    unfold appendLink
    rw [hfault]
    simp [Except.toOption]

/-! ### Genesis -/

theorem signPayload_hash {payload : Json} {privateKey : String}
    (h : signPayload p payload privateKey = .ok signed) :
    ∃ hash, signedLinkHash p signed = .ok hash := by
  rw [signPayload_eq] at h
  rw [← Except.ok.inj h]
  unfold signedLinkHash SignedPayload.document
  rw [Mapping.document_ofObject]
  exact ⟨_, rfl⟩

theorem genesisLink_follows {contentId publisherPeerId runId modelId promptHash : String}
    (hcontent : contentId ≠ "") (hkey : signed.publicKey = publisherPeerId) :
    Follows p none .start 0 signed
      { genesisLink now contentId publisherPeerId runId modelId promptHash [] with
        payload := .ofObject (genesisLink now contentId publisherPeerId runId modelId promptHash
          []).payload } := by
  have hknown : linkGenesis ∈ knownLinkTypes := by decide
  refine ⟨rfl, hknown, rfl, rfl, hkey.symm, missing_eq_nil_iff.mpr ?_, fun _ => ⟨rfl, hcontent,
    ?_, fun _ hnone => by cases hnone⟩, fun hne => absurd rfl hne⟩
  · have hrequired : required linkGenesis = ["content_hash", "model_id", "run_id"] := by decide
    intro name hname
    have hname : name ∈ ["content_hash", "model_id", "run_id"] := hrequired ▸ hname
    simp only [List.mem_cons, List.not_mem_nil, or_false] at hname
    rcases hname with rfl | rfl | rfl <;> simp
  · simp [textField, genesisLink, str]

theorem genesis_accepted (hsigns : p.Signs) {contentId privateKey runId modelId promptHash : String}
    (hcontent : contentId ≠ "") :
    ∃ signed v, makeGenesisLink p now contentId (p.publicKey privateKey) privateKey runId modelId
        promptHash [] = .ok signed ∧
      verifyChain p now' ([signed].map .link) none none = .ok v := by
  have hsigned := signPayload_eq (p := p) (genesisLink now contentId (p.publicKey privateKey) runId
    modelId promptHash []).unsignedPayload privateKey
  obtain ⟨hash, hhash⟩ := signPayload_hash hsigned
  obtain ⟨walked, hwalked⟩ : ∃ walked, verifyLink p now' none .start (_, 0) = .ok walked :=
    ⟨_, verifyLink_ok.mpr ⟨verify_signPayload hsigns hsigned, _, fromPayload_unsigned _ rfl,
      genesisLink_follows hcontent rfl, hash, hhash, rfl⟩⟩
  have hwalk : walk p now' none ([] ++ [_]) = .ok walked :=
    walk_concat.mpr ⟨.start, rfl, hwalked⟩
  obtain ⟨v, hv⟩ := Accepts.of_walk (by simp) hwalk
  exact ⟨_, v, hsigned, hv⟩

/-- **A provenance chain means its head**, and `append_link` keeps it so exactly for the links
that it refuses and those that are complete. -/
theorem chain_means_head (p : Platform) (hsigns : p.Signs) (hbinding : Binding p) :
    (∀ now now' A B expectedA headA expectedB headB v w,
      verifyChain p now A expectedA headA = .ok v → verifyChain p now' B expectedB headB = .ok w →
        v.headHash = w.headHash → SameLinks p A B) ∧
    (∀ now links expectedContentId expectedHeadHash v,
      verifyChain p now links expectedContentId expectedHeadHash = .ok v →
        OneGenesis p now links v.contentId) ∧
    ∀ now now' now'' chain expectedContentId expectedHeadHash v addition,
      verifyChain p now (chain.map .link) expectedContentId expectedHeadHash = .ok v →
      addition.issuerPeerId = p.publicKey addition.privateKey →
        (Extends p now' now'' expectedContentId chain addition ↔
          (¬ addition.Checked v.contentId ∨ addition.Complete)) :=
  ⟨fun _ _ _ _ _ _ _ _ _ _ hA hB hhead => sameLinks_of_head hbinding hA hB hhead,
    fun _ _ _ _ _ h => oneGenesis_of_accepted h,
    fun _ _ now'' _ _ _ _ _ h hissuer => append_accepted hsigns h hissuer now''⟩

/-! ### Samples -/

/-- A platform whose signatures and hashes are the texts themselves. -/
def sample : Platform where
  repr _ := "other"
  parseInt _ := none
  parseFloat _ := none
  text value := String.ofList value.encode
  sha256 := id
  isKey _ := true
  isBase64 _ := true
  publicKey := id
  signature key text := key ++ text
  verifies key signature text := signature == key ++ text

theorem sample_signs : sample.Signs :=
  ⟨fun _ => rfl, fun _ _ => rfl, fun _ _ => beq_self_eq_true _⟩

theorem sample_binding : Binding sample :=
  fun _ _ _ _ _ _ _ _ h => Json.encode_injective h

/-- A further link, with the fields of its payload. -/
def sampleAddition (payload : List (String × Json)) : Addition :=
  ⟨linkPeerAttestation, "peer", "peer", some payload, none⟩

def sampleSeen : List (String × Json) :=
  [("peer_id", .str "peer"), ("bytes_seen_at", .str "now")]

theorem sample_chain : ∃ signed v,
    makeGenesisLink sample "now" "content" "publisher" "publisher" "run" "model" "" [] =
        .ok signed ∧
      verifyChain sample "now" ([signed].map .link) none none = .ok v :=
  genesis_accepted sample_signs (by decide)

/-- **An attestation without its fields** is appended, and the chain is no longer accepted. -/
theorem incomplete_link_appended : ∃ signed v,
    verifyChain sample "now" ([signed].map .link) none none = .ok v ∧
      (sampleAddition []).issuerPeerId = sample.publicKey (sampleAddition []).privateKey ∧
      ¬ Extends sample "now" "now" none [signed] (sampleAddition []) := by
  obtain ⟨signed, v, _, hv⟩ := sample_chain
  refine ⟨signed, v, hv, rfl, fun hextends => ?_⟩
  rcases (append_accepted sample_signs hv rfl "now").mp hextends with hchecked | hcomplete
  · exact hchecked ⟨by decide, rfl⟩
  · exact absurd (hcomplete.2 "peer_id" (by decide)) List.not_mem_nil

theorem chain_means_head_sample : ∃ first second v w,
    verifyChain sample "now" ([first].map .link) none none = .ok v ∧
      verifyChain sample "later" ([first, second].map .link) none none = .ok w ∧
      (∀ A expected u, verifyChain sample "now" A expected none = .ok u → u.headHash = w.headHash →
        SameLinks sample A ([first, second].map .link)) ∧
      OneGenesis sample "later" ([first, second].map .link) w.contentId ∧
      Extends sample "now" "later" none [first, second] (sampleAddition sampleSeen) := by
  obtain ⟨first, v, _, hv⟩ := sample_chain
  have hall := chain_means_head sample sample_signs sample_binding
  have hcomplete : (sampleAddition sampleSeen).Complete := ⟨by decide, by decide⟩
  obtain ⟨chain, walked, hchain⟩ := verifyChain_ok.mp hv
  obtain rfl : [first] = chain :=
    Except.ok.inj ((materialize_links [first]).symm.trans hchain.materialize)
  have hchecked : (sampleAddition sampleSeen).Checked walked.contentId := ⟨by decide, rfl⟩
  have hnext := nextLink_of_checked "now" hchain.walk hchain.some hchecked
  rw [signPayload_eq] at hnext
  generalize SignedPayload.mk _ _ _ _ = second at hnext
  have happend : appendLink sample "now" [first] (sampleAddition sampleSeen) =
      (.ok second, [first, second]) := by
    unfold appendLink
    rw [hnext]
    rfl
  have hextends := (hall.2.2 _ "now" "later" _ _ _ _ _ hv rfl).mpr (Or.inr hcomplete)
  unfold Extends at hextends
  rw [happend] at hextends
  rcases hextends with ⟨_, hfault⟩ | ⟨_, w, _, hw⟩
  · cases congrArg Prod.fst hfault
  · exact ⟨first, second, v, w, hv, hw,
      fun A _ u hu hhead => hall.1 _ _ _ _ _ _ _ _ u w hu hw hhead,
      hall.2.1 _ _ _ _ _ hw, (hall.2.2 _ _ _ _ _ _ _ _ hw rfl).mpr (Or.inr hcomplete)⟩

end Provenance
